import Mathlib.Data.Rat.Defs
import Mathlib.Algebra.Order.Group.Unbundled.Abs
import Mathlib.Algebra.Order.Field.Rat
import PdfConformance.Judgement
import PdfConformance.Proofs.Absence

/-! # The words that grammars are told in

What values are, what a container holds under its keys, and where a walk may go on to: with these
words a grammar says which containers conform, with no order in it and no rules. A container may
lack an entry only where the grammar says so; an entry that is neither absent nor usable conforms to
nothing. -/

namespace PdfConformance

/-- Entries introduced in `since` may be present. -/
def Profile.Permits (p : Profile) (since : Version) : Prop := p.mode = .relaxed ∨ since ≤ p.version

namespace Kind

def numbers : List Kind := [.integer, .real]

def strings : List Kind := [.literalString, .hexString]

end Kind

/-! ## Values -/

namespace Object

def OfKind (kinds : List Kind) (value : Object) : Prop := value.kind ∈ kinds

/-- A name spelt as one of these words. -/
def Spells (words : List String) (value : Object) : Prop :=
  ∃ word ∈ words, value = .name (Text.Utf8.encode word)

def Between (low high : Int) (value : Object) : Prop :=
  ∃ n, value = .integer n ∧ low ≤ n ∧ n ≤ high

def OfLength (n : Nat) (value : Object) : Prop := ∃ items, value = .array items ∧ items.length = n

/-- An array all of whose elements resolve to such values. -/
def ArrayOf (find : ObjectId → Option Object) (P : Object → Prop) (value : Object) : Prop :=
  ∃ items, value = .array items ∧
    ∀ item ∈ items, ∃ element, Resolves find item element ∧ P element

def TupleOf (find : ObjectId → Option Object) (n : Nat) (P : Object → Prop) (value : Object) :
    Prop :=
  value.OfLength n ∧ value.ArrayOf find P

/-- Four numbers. -/
def IsRectangle (find : ObjectId → Option Object) (value : Object) : Prop :=
  value.TupleOf find 4 (OfKind Kind.numbers)

/-- A number within 1/10000 of a number. -/
def Near (target : ℚ) (value : Object) : Prop :=
  ∃ units, value.units? = some units ∧ |(units : ℚ) / 2 ^ 149 - target| < 1 / 10000

/-- A string that writes a moment. -/
def IsDate (mode : Mode) (value : Object) : Prop :=
  ∃ form content, value = .string form content ∧ (Timestamp.read? mode content).isSome

/-- A device space by its name, or an array headed by the name of a family. A pattern is neither. -/
def IsColourSpace (find : ObjectId → Option Object) (value : Object) : Prop :=
  value.Spells ["DeviceGray", "DeviceRGB", "DeviceCMYK"] ∨
    ∃ first rest family, value = .array (first :: rest) ∧ Resolves find first family ∧
      family.Spells ["CalGray", "CalRGB", "Lab", "ICCBased", "Indexed", "Separation", "DeviceN",
        "DeviceGray", "DeviceRGB", "DeviceCMYK"]

variable {value : Object}

@[simp] theorem ofLength_array {n : Nat} {items : List Object} :
    (Object.array items).OfLength n ↔ items.length = n := by
  simp [OfLength]

theorem ArrayOf.exists_items {find : ObjectId → Option Object} {P : Object → Prop}
    (h : value.ArrayOf find P) : ∃ items, value = .array items := by
  obtain ⟨items, hitems, -⟩ := h
  exact ⟨items, hitems⟩

theorem ofKind_integer : value.OfKind [.integer] ↔ ∃ n, value = .integer n := by
  cases value with
  | string form content => cases form <;> simp [OfKind, kind]
  | _ => simp [OfKind, kind]

theorem ofKind_numbers :
    value.OfKind Kind.numbers ↔ (∃ n, value = .integer n) ∨ ∃ x, value = .real x := by
  cases value with
  | string form content => cases form <;> simp [OfKind, Kind.numbers, kind]
  | _ => simp [OfKind, Kind.numbers, kind]

theorem ofKind_strings :
    value.OfKind Kind.strings ↔ ∃ form content, value = .string form content := by
  cases value with
  | string form content => cases form <;> simp [OfKind, Kind.strings, kind]
  | _ => simp [OfKind, Kind.strings, kind]

end Object

/-! ## Entries -/

/-- A dictionary, or the header of a stream, in a document that is read under a profile. -/
structure Container where
  find : ObjectId → Option Object
  profile : Profile
  entries : Dict

namespace Container

variable (k : Container)

/-- Another container of the document. -/
def withEntries (entries : Dict) : Container := { k with entries }

/-- No value is to be had under the key. -/
def Absent (key : String) : Prop :=
  ∀ stored, Dict.get? k.entries (Text.Utf8.encode key) = some stored → stored.Absent k.find

/-- The entry under the key is usable: what is stored there resolves to the value. -/
def Usable (key : String) (stored value : Object) : Prop :=
  Dict.get? k.entries (Text.Utf8.encode key) = some stored ∧ Resolves k.find stored value ∧
    value ≠ .null

def Holds (key : String) (P : Object → Prop) : Prop :=
  ∃ stored value, k.Usable key stored value ∧ P value

/-- The entry may be absent. -/
def Allows (key : String) (P : Object → Prop) : Prop := k.Absent key ∨ k.Holds key P

/-- The entry may be absent, and has to be where the document is too old for it. -/
def AllowsSince (since : Version) (key : String) (P : Object → Prop) : Prop :=
  k.Absent key ∨ k.profile.Permits since ∧ k.Holds key P

/-- The entry may be absent unless the condition holds. -/
def HoldsIf (condition : Prop) (key : String) (P : Object → Prop) : Prop :=
  ¬ condition ∧ k.Absent key ∨ k.Holds key P

/-- The stream declares this filter and no other, by name or as the one element of an array. -/
def SoleFilter (filter : String) : Prop :=
  let name : Object := .name (Text.Utf8.encode filter)
  Dict.get? k.entries (Text.Utf8.encode "Filter") = some name ∨
    Dict.get? k.entries (Text.Utf8.encode "Filter") = some (.array [name])

end Container

/-! ## Walks -/

/-- How a walk stands: how many more levels of containers it may enter, and those it is within. -/
structure Walk where
  levels : Nat
  trail : Trail

namespace Walk

/-- The walk may go one level deeper by way of the stored value. -/
def Admits (walk : Walk) (stored : Object) : Prop :=
  0 < walk.levels ∧ ∀ id, stored = .reference id → id ∉ walk.trail.within

def next (walk : Walk) (stored : Object) : Walk := ⟨walk.levels - 1, walk.trail.push stored⟩

theorem Admits.levels_next_lt {walk : Walk} {stored : Object} (h : walk.Admits stored) :
    (walk.next stored).levels < walk.levels :=
  Nat.sub_lt h.1 Nat.one_pos

end Walk

namespace Container

variable (k : Container)

/-- The entry is usable, and its value is entered one level deeper. -/
def Enters (walk : Walk) (key : String) (P : Walk → Object → Prop) : Prop :=
  ∃ stored value, k.Usable key stored value ∧ walk.Admits stored ∧ P (walk.next stored) value

/-- The entry may be absent, and has to be where the document is too old for it. Otherwise its value
is entered. -/
def MayEnter (walk : Walk) (since : Version) (key : String) (P : Walk → Object → Prop) : Prop :=
  k.Absent key ∨ k.profile.Permits since ∧ k.Enters walk key P

/-- A dictionary with such entries. -/
def Dictionary (Q : Container → Prop) (value : Object) : Prop :=
  ∃ entries, value = .dictionary entries ∧ Q (k.withEntries entries)

/-- A stream with such entries. -/
def Stream (Q : Container → Prop) (value : Object) : Prop :=
  ∃ header, value = .stream header ∧ Q (k.withEntries header)

variable {k : Container} {walk : Walk} {key : String} {value : Object}

theorem Enters.mono {P P' : Walk → Object → Prop} (h : k.Enters walk key P)
    (hP : ∀ inner value, inner.levels < walk.levels → P inner value → P' inner value) :
    k.Enters walk key P' := by
  obtain ⟨stored, value, husable, hadmits, hvalue⟩ := h
  exact ⟨stored, value, husable, hadmits, hP _ value hadmits.levels_next_lt hvalue⟩

theorem MayEnter.mono {since : Version} {P P' : Walk → Object → Prop}
    (h : k.MayEnter walk since key P)
    (hP : ∀ inner value, inner.levels < walk.levels → P inner value → P' inner value) :
    k.MayEnter walk since key P' :=
  h.imp_right (And.imp_right fun henters => henters.mono hP)

theorem Dictionary.mono {Q Q' : Container → Prop} (h : k.Dictionary Q value)
    (hQ : ∀ k, Q k → Q' k) : k.Dictionary Q' value := by
  obtain ⟨entries, rfl, hentries⟩ := h
  exact ⟨entries, rfl, hQ _ hentries⟩

theorem Stream.mono {Q Q' : Container → Prop} (h : k.Stream Q value) (hQ : ∀ k, Q k → Q' k) :
    k.Stream Q' value := by
  obtain ⟨header, rfl, hheader⟩ := h
  exact ⟨header, rfl, hQ _ hheader⟩

end Container

end PdfConformance

import PdfConformance.Object.Real32
import PdfConformance.Text.Utf8

/-! # Objects of a document

The values a PDF file is made of. A dictionary, and the header of a stream, is a list of entries in
the order of their insertion: setting a key that is present replaces its value in place. -/

namespace PdfConformance

/-- The name of an indirect object. -/
structure ObjectId where
  number : Nat
  generation : Nat
  deriving DecidableEq, Repr

/-- The two numbers of an id, as messages give it. -/
def ObjectId.text (id : ObjectId) : String := toString id.number ++ " " ++ toString id.generation

/-- How a string is written in the file. -/
inductive StringForm where
  | literal
  | hexadecimal
  deriving DecidableEq, Repr

/-- The body of a stream is never looked at, so a stream is its header. -/
inductive Object where
  | null
  | boolean (value : Bool)
  | integer (value : Int)
  | real (value : Real32)
  | name (spelling : Bytes)
  | string (form : StringForm) (content : Bytes)
  | array (items : List Object)
  | dictionary (entries : List (Bytes × Object))
  | stream (header : List (Bytes × Object))
  | reference (id : ObjectId)
  deriving Repr, Inhabited

/-- Entries in the order of their insertion. -/
abbrev Dict := List (Bytes × Object)

namespace Dict

def get? (d : Dict) (key : Bytes) : Option Object := d.lookup key

def has (d : Dict) (key : Bytes) : Bool := (get? d key).isSome

/-- A key that is present keeps its place. -/
def set : Dict → Bytes → Object → Dict
  | [], key, value => [(key, value)]
  | entry :: d, key, value =>
    if entry.1 = key then (key, value) :: d else entry :: set d key value

def ofList (entries : List (Bytes × Object)) : Dict :=
  entries.foldl (fun d entry => set d entry.1 entry.2) []

@[simp] theorem get?_nil (key : Bytes) : get? [] key = none := rfl

theorem get?_cons (entry : Bytes × Object) (d : Dict) (key : Bytes) :
    get? (entry :: d) key = if key = entry.1 then some entry.2 else get? d key := by
  rw [get?, List.lookup_cons]
  by_cases h : key = entry.1
  · simp [h]
  · simp [get?, beq_eq_false_iff_ne.mpr h, h]

theorem get?_set (d : Dict) (key other : Bytes) (value : Object) :
    get? (set d key value) other = if other = key then some value else get? d other := by
  induction d with
  | nil => simp [set, get?_cons]
  | cons entry d ih =>
    by_cases hk : entry.1 = key
    · simp only [set, hk, if_true, get?_cons]
      split <;> rfl
    · simp only [set, hk, if_false, get?_cons, ih]
      by_cases h : other = entry.1 <;> simp [h, hk]

theorem mem_keys_set {d : Dict} {key other : Bytes} {value : Object} :
    other ∈ (set d key value).map Prod.fst ↔ other = key ∨ other ∈ d.map Prod.fst := by
  induction d with
  | nil => simp [set]
  | cons entry d ih =>
    by_cases h : entry.1 = key
    · simp [set, h]
    · rw [set, if_neg h, List.map_cons, List.mem_cons, ih, List.map_cons, List.mem_cons]
      exact or_left_comm

/-- Setting keeps the keys distinct. -/
theorem nodup_set {d : Dict} (h : (d.map Prod.fst).Nodup) (key : Bytes) (value : Object) :
    ((set d key value).map Prod.fst).Nodup := by
  induction d with
  | nil => simp [set]
  | cons entry d ih =>
    rw [List.map_cons, List.nodup_cons] at h
    by_cases hk : entry.1 = key
    · rw [set, if_pos hk, List.map_cons, List.nodup_cons]
      exact ⟨hk ▸ h.1, h.2⟩
    · rw [set, if_neg hk, List.map_cons, List.nodup_cons, mem_keys_set]
      exact ⟨not_or.mpr ⟨hk, h.1⟩, ih h.2⟩

theorem nodup_ofList (entries : List (Bytes × Object)) :
    ((ofList entries).map Prod.fst).Nodup := by
  suffices ∀ (l : List (Bytes × Object)) (d : Dict), (d.map Prod.fst).Nodup →
      ((l.foldl (fun d entry => set d entry.1 entry.2) d).map Prod.fst).Nodup from
    this entries [] List.nodup_nil
  intro l
  induction l with
  | nil => exact fun _ h => h
  | cons entry l ih => exact fun d h => ih _ (nodup_set h _ _)

/-- The header of a stream declares `filter` and no other, by name or as the one element of an
array. The declaration is read as it is stored: references in it are not followed. -/
def filteredOnlyBy (header : Dict) (filter : String) : Bool :=
  match get? header (Text.Utf8.encode "Filter") with
  | some (.name spelling) => spelling == Text.Utf8.encode filter
  | some (.array [.name spelling]) => spelling == Text.Utf8.encode filter
  | _ => false

end Dict

namespace Object

def reference? : Object → Option ObjectId
  | .reference id => some id
  | _ => none

theorem eq_reference_of_reference? {object : Object} {id : ObjectId}
    (h : object.reference? = some id) : object = .reference id := by
  cases object with
  | reference other => exact congrArg reference (Option.some.inj h)
  | _ => cases h

/-- The text of a name. -/
def nameText? : Object → Option String
  | .name spelling => some (Text.Utf8.decodeLossy spelling)
  | _ => none

/-- The value of a finite number in units of 2⁻¹⁴⁹. -/
def units? : Object → Option Int
  | .integer value => some (value * Real32.unit)
  | .real value => value.units?
  | _ => none

end Object

end PdfConformance

import Mathlib.Algebra.Order.Field.Basic
import Mathlib.Tactic.FieldSimp
import Mathlib.Tactic.Linarith
import PdfConformance.Proofs.Judgement.Descent
import PdfConformance.Proofs.Text.Utf8
import PdfConformance.Proofs.Vocabulary

/-! # What rules mean

A rule finds no fault with an entry that is absent and need not be there, and with one that is
usable, has a value of the rule's shape within its limit, and is not too new. -/

namespace PdfConformance

open Inquiry

variable {find : ObjectId → Option Object} {p : Profile} {site : Site} {value : Object}

theorem Inquiry.run_require_eq_ok {condition : Bool} {fault : Fault} :
    (Inquiry.require condition fault).run find = .ok () ↔ condition = true := by
  cases condition <;> simp [Inquiry.require, run]

theorem Inquiry.run_then_eq_ok {x : Inquiry Unit} {f : Unit → Inquiry Unit} :
    (x >>= f).run find = .ok () ↔ x.run find = .ok () ∧ (f ()).run find = .ok () := by
  constructor
  · intro h
    obtain ⟨_, hfirst, hrest⟩ := exists_of_run_bind h
    exact ⟨hfirst, hrest⟩
  · rintro ⟨hfirst, hrest⟩
    rw [run_bind_of_run hfirst]
    exact hrest

theorem Profile.permits_iff {since : Version} : p.Permits since ↔ p.refuses since = false := by
  have hcovers : p.covers since = decide (since ≤ p.version) := rfl
  cases hmode : p.mode <;> simp [Profile.Permits, refuses, hmode, hcovers]

/-! ## Shapes -/

namespace Shape

/-- The kinds of the values a shape is for. -/
def kinds : Shape → List Kind
  | boolean => [.boolean]
  | integer => [.integer]
  | number => Kind.numbers
  | name => [.name]
  | string | date => Kind.strings
  | array | rectangle | numbers | integers | strings | names => [.array]
  | dictionary => [.dictionary]
  | stream => [.stream]
  | fileSpecification => [.literalString, .hexString, .dictionary]
  | colourSpace => [.name, .array]
  | anyOf _ kinds => kinds

theorem admits_iff {shape : Shape} : shape.admits value.kind = true ↔ value.OfKind shape.kinds := by
  unfold Object.OfKind
  cases shape with
  | anyOf _ _ => simp [admits, kinds]
  | _ => cases value.kind <;> decide

/-- The values a shape is for, their contents included. -/
def Fits (find : ObjectId → Option Object) (mode : Mode) : Shape → Object → Prop
  | rectangle => Object.IsRectangle find
  | numbers => Object.ArrayOf find (Object.OfKind Kind.numbers)
  | integers => Object.ArrayOf find (Object.OfKind [.integer])
  | strings => Object.ArrayOf find (Object.OfKind Kind.strings)
  | names => Object.ArrayOf find (Object.OfKind [.name])
  | date => Object.IsDate mode
  | colourSpace => Object.IsColourSpace find
  | shape => Object.OfKind shape.kinds

theorem run_checkElement_eq_ok {shape : Shape} {item : Object} :
    (shape.checkElement site item).run find = .ok () ↔
      ∃ element, Resolves find item element ∧ element.OfKind shape.kinds := by
  constructor
  · intro h
    obtain ⟨element, helement, h⟩ := exists_of_run_bind h
    exact ⟨element, run_valueOf_eq_ok.mp helement, admits_iff.mp (run_require_eq_ok.mp h)⟩
  · rintro ⟨element, hresolves, hkind⟩
    unfold checkElement
    rw [run_bind_of_run (run_valueOf_eq_ok.mpr hresolves)]
    exact run_require_eq_ok.mpr (admits_iff.mpr hkind)

theorem run_checkElements_eq_ok {shape : Shape} {items : List Object} :
    (items.forM (shape.checkElement site)).run find = .ok () ↔
      (Object.array items).ArrayOf find (Object.OfKind shape.kinds) := by
  rw [run_forM_eq_ok]
  simp [Object.ArrayOf, run_checkElement_eq_ok]

end Shape

namespace ColourSpace

/-- Names are compared by what they are read as; the known ones are written in ASCII. -/
theorem spells_iff {words : List String}
    (hwords : ∀ word ∈ words, Text.Utf8.isAscii word.toList = true) :
    value.Spells words ↔ ∃ word ∈ words, value.nameText? = some word := by
  refine exists_congr fun word => and_congr_right fun hword => ⟨?_, ?_⟩
  · rintro rfl
    exact congrArg some ((Text.Utf8.decodeLossy_eq_iff (hwords word hword)).mpr rfl)
  · exact Object.eq_name_of_nameText? (hwords word hword)

theorem run_checkName_eq_ok {known : List String} (hpattern : "Pattern" ∉ known)
    (hwords : ∀ word ∈ known, Text.Utf8.isAscii word.toList = true) {name : String}
    (hname : value.nameText? = some name) :
    (checkName site known name).run find = .ok () ↔ value.Spells known := by
  have hspells : value.Spells known ↔ name ∈ known := by simp [spells_iff hwords, hname]
  rw [hspells]
  unfold checkName
  split
  · rename_i heq
    subst heq
    constructor
    · intro h
      cases h
    · exact fun h => absurd h hpattern
  · simp [run_require_eq_ok]

theorem run_checkItems_eq_ok {items : List Object} :
    (checkItems site items).run find = .ok () ↔ ∃ first rest family, items = first :: rest ∧
      Resolves find first family ∧ family.Spells families := by
  cases items with
  | nil =>
    constructor
    · intro h
      cases h
    · rintro ⟨_, _, _, h, -⟩
      cases h
  | cons first rest =>
    constructor
    · intro h
      obtain ⟨family, hfamily, h⟩ := exists_of_run_bind h
      refine ⟨first, rest, family, rfl, run_valueOf_eq_ok.mp hfamily, ?_⟩
      cases hname : family.nameText? with
      | none =>
        rw [hname] at h
        cases h
      | some name =>
        rw [hname] at h
        exact (run_checkName_eq_ok (by decide) (by decide) hname).mp h
    · rintro ⟨_, _, family, ⟨⟩, hresolves, hspells⟩
      unfold checkItems
      rw [run_bind_of_run (run_valueOf_eq_ok.mpr hresolves)]
      obtain ⟨name, -, hname⟩ := (spells_iff (by decide)).mp hspells
      rw [hname]
      exact (run_checkName_eq_ok (by decide) (by decide) hname).mpr hspells

end ColourSpace

namespace Shape

variable {shape : Shape}

theorem checkContents_eq_done (hitems : ∀ items, shape.checkItems site items = .done ())
    (hdate : shape ≠ .date) (hcolours : shape ≠ .colourSpace) (value : Object) :
    shape.checkContents p site value = .done () := by
  cases value with
  | array items => exact hitems items
  | string form content => simp [checkContents, hdate]
  | name spelling => simp [checkContents, hcolours]
  | _ => rfl

/-- A shape for arrays asks nothing of other values. -/
theorem run_check_array_iff {P : Object → Prop} (hkinds : shape.kinds = [.array])
    (hP : ∀ value, P value → ∃ items, value = .array items)
    (hitems : ∀ items, (shape.checkItems site items).run find = .ok () ↔ P (.array items)) :
    value.OfKind shape.kinds ∧ (shape.checkContents p site value).run find = .ok () ↔ P value := by
  constructor
  · rintro ⟨hkind, hcontents⟩
    rw [hkinds] at hkind
    obtain ⟨items, rfl⟩ := Object.eq_array_of_kind (List.mem_singleton.mp hkind)
    exact (hitems items).mp hcontents
  · intro h
    obtain ⟨items, rfl⟩ := hP value h
    exact ⟨by rw [hkinds]; exact List.mem_singleton.mpr rfl, (hitems items).mpr h⟩

theorem run_check_date_iff :
    value.OfKind Kind.strings ∧ (date.checkContents p site value).run find = .ok () ↔
      value.IsDate p.mode := by
  constructor
  · rintro ⟨hkind, hcontents⟩
    obtain ⟨form, content, rfl⟩ := Object.ofKind_strings.mp hkind
    exact ⟨form, content, rfl, run_require_eq_ok.mp hcontents⟩
  · rintro ⟨form, content, rfl, hdate⟩
    exact ⟨Object.ofKind_strings.mpr ⟨form, content, rfl⟩, run_require_eq_ok.mpr hdate⟩

theorem run_check_colourSpace_iff :
    value.OfKind [.name, .array] ∧ (colourSpace.checkContents p site value).run find = .ok () ↔
      value.IsColourSpace find := by
  constructor
  · rintro ⟨hkind, hcontents⟩
    rcases List.mem_cons.mp hkind with hname | harray
    · obtain ⟨spelling, rfl⟩ := Object.eq_name_of_kind hname
      exact .inl ((ColourSpace.run_checkName_eq_ok (by decide) (by decide) rfl).mp hcontents)
    · obtain ⟨items, rfl⟩ := Object.eq_array_of_kind (List.mem_singleton.mp harray)
      obtain ⟨first, rest, family, rfl, hfamily⟩ := ColourSpace.run_checkItems_eq_ok.mp hcontents
      exact .inr ⟨first, rest, family, rfl, hfamily⟩
  · rintro (hspells | ⟨first, rest, family, rfl, hfamily⟩)
    · obtain ⟨word, hword, rfl⟩ := id hspells
      exact ⟨.head _, (ColourSpace.run_checkName_eq_ok (by decide) (by decide) rfl).mpr hspells⟩
    · exact ⟨.tail _ (.head _),
        ColourSpace.run_checkItems_eq_ok.mpr ⟨first, rest, family, rfl, hfamily⟩⟩

/-- A value is accepted for a shape if it fits it. -/
theorem run_check_eq_ok :
    (shape.check p site value).run find = .ok () ↔ shape.Fits find p.mode value := by
  unfold check
  rw [run_then_eq_ok, run_require_eq_ok, admits_iff]
  cases shape with
  | rectangle =>
    refine run_check_array_iff rfl (fun value h => h.2.exists_items) fun items => ?_
    simp only [checkItems, Fits, Object.IsRectangle, Object.TupleOf, Object.ofLength_array]
    rw [run_then_eq_ok, run_require_eq_ok, decide_eq_true_iff, run_checkElements_eq_ok]
    rfl
  | numbers | integers | strings | names =>
    exact run_check_array_iff rfl (fun value h => h.exists_items) fun items =>
      run_checkElements_eq_ok
  | date => exact run_check_date_iff
  | colourSpace => exact run_check_colourSpace_iff
  | _ =>
    refine and_iff_left ?_
    rw [checkContents_eq_done (fun _ => rfl) (by simp) (by simp)]
    rfl

theorem Fits.ofKind {mode : Mode} (h : shape.Fits find mode value) : value.OfKind shape.kinds := by
  have hcheck : (shape.check ⟨.v1_0, mode⟩ ⟨"", ""⟩ value).run find = .ok () :=
    run_check_eq_ok.mpr h
  exact admits_iff.mp (run_require_eq_ok.mp (run_then_eq_ok.mp hcheck).1)

end Shape

/-! ## Limits -/

namespace Limit

theorem holds_oneOf_iff {words : List String} {spelling : Bytes} :
    (oneOf words).holds (.name spelling) = true ↔ (Object.name spelling).Spells words := by
  simp only [holds, List.any_eq_true, decide_eq_true_eq, Object.Spells, Object.name.injEq]
  exact exists_congr fun word => and_congr_right fun _ => eq_comm

/-- The limit is told in whole numbers, to within less than one unit in 10000. -/
theorem isTenths_iff {n units : Int} :
    isTenths n units = true ↔ |(units : ℚ) / 2 ^ 149 - n / 10| < 1 / 10000 := by
  have hunit : (Real32.unit : ℚ) = 2 ^ 149 := by
    rw [show Real32.unit = 2 ^ 149 from Nat.one_shiftLeft 149]
    norm_cast
  have hpos : (0 : ℚ) < 10000 * Real32.unit := by rw [hunit]; positivity
  have hscaled : (units : ℚ) / Real32.unit - n / 10 =
      ((10000 * units - 1000 * n * Real32.unit : Int) : ℚ) / (10000 * Real32.unit) := by
    push_cast
    field_simp
    ring
  have hbound : (1 / 10000 : ℚ) * (10000 * Real32.unit) = Real32.unit := by ring
  rw [isTenths, decide_eq_true_iff, ← hunit, hscaled, abs_div, abs_of_pos hpos,
    div_lt_iff₀ hpos, hbound, ← Int.cast_abs, Int.abs_eq_natAbs]
  norm_cast

theorem near_iff {n : Int} :
    value.Near (n / 10) ↔ value.units?.any (isTenths n) = true := by
  unfold Object.Near
  cases value.units? with
  | none => simp
  | some units => simp [isTenths_iff]

end Limit

/-! ## Rules -/

namespace Rule

/-! The writings of a rule come to what it is made of. -/

variable {key : String} {shape : Shape} {demand : Demand} {since' since : Version}
  {limit? : Option Limit} {limit : Limit}

@[simp] theorem demanded_eq : demanded demand key shape = ⟨key, shape, demand, .v1_0, none⟩ := rfl

@[simp] theorem required_eq : required key shape = ⟨key, shape, .always, .v1_0, none⟩ := rfl

@[simp] theorem optional_eq : optional key shape = ⟨key, shape, .never, .v1_0, none⟩ := rfl

@[simp] theorem since_mk :
    Rule.since since ⟨key, shape, demand, since', limit?⟩ = ⟨key, shape, demand, since, limit?⟩ :=
  rfl

@[simp] theorem limited_mk : limited limit ⟨key, shape, demand, since, limit?⟩ =
    ⟨key, shape, demand, since, some limit⟩ :=
  rfl

end Rule

/-- An entry is missing, or what it leads to is. -/
inductive Fault.IsLack (site : Site) : Fault → Prop
  | missing : IsLack site (.missingEntry site)
  | dangling {id : ObjectId} : IsLack site (.dangling site id)

/-- The entry that the rule is for is absent, and need not be there. -/
def Container.Omits (k : Container) (rule : Rule) : Prop :=
  rule.isRequired k.profile k.entries = false ∧ k.Absent rule.key

namespace Rule

/-- The values a rule finds no fault with. -/
def Accepts (find : ObjectId → Option Object) (mode : Mode) (rule : Rule) (value : Object) : Prop :=
  rule.shape.Fits find mode value ∧ ∀ limit, rule.limit? = some limit → limit.holds value = true

section Accepts

variable {mode : Mode} {key : String} {shape : Shape} {demand : Demand} {since : Version}

theorem Accepts.ofKind {rule : Rule} (h : rule.Accepts find mode value) :
    value.OfKind rule.shape.kinds :=
  h.1.ofKind

theorem Accepts.of_unlimited {rule : Rule} (hlimit : rule.limit? = none)
    (h : rule.shape.Fits find mode value) : rule.Accepts find mode value := by
  refine ⟨h, fun limit hsome => ?_⟩
  rw [hlimit] at hsome
  cases hsome

theorem accepts_limited {limit : Limit} :
    Accepts find mode ⟨key, shape, demand, since, some limit⟩ value ↔
      shape.Fits find mode value ∧ limit.holds value = true := by
  simp [Accepts]

@[simp] theorem accepts_unlimited :
    Accepts find mode ⟨key, shape, demand, since, none⟩ = shape.Fits find mode := by
  funext value
  simp [Accepts]

@[simp] theorem accepts_oneOf {words : List String} :
    Accepts find mode ⟨key, .name, demand, since, some (.oneOf words)⟩ = Object.Spells words := by
  funext value
  refine propext (accepts_limited.trans ⟨?_, ?_⟩)
  · rintro ⟨hfits, hholds⟩
    obtain ⟨spelling, rfl⟩ := Object.eq_name_of_kind (List.mem_singleton.mp hfits)
    exact Limit.holds_oneOf_iff.mp hholds
  · intro hspells
    obtain ⟨word, -, rfl⟩ := id hspells
    exact ⟨List.mem_singleton.mpr rfl, Limit.holds_oneOf_iff.mpr hspells⟩

@[simp] theorem accepts_name_or_array {label : String} {words : List String} :
    Accepts find mode ⟨key, .anyOf label [.name, .array], demand, since, some (.oneOf words)⟩ =
      fun value => value.Spells words ∨ value.OfKind [.array] := by
  funext value
  refine propext (accepts_limited.trans ⟨?_, ?_⟩)
  · rintro ⟨hfits, hholds⟩
    rcases List.mem_cons.mp hfits with hname | harray
    · obtain ⟨spelling, rfl⟩ := Object.eq_name_of_kind hname
      exact .inl (Limit.holds_oneOf_iff.mp hholds)
    · exact .inr harray
  · rintro (hspells | harray)
    · obtain ⟨word, -, rfl⟩ := id hspells
      exact ⟨.head _, Limit.holds_oneOf_iff.mpr hspells⟩
    · obtain ⟨items, rfl⟩ := Object.eq_array_of_kind (List.mem_singleton.mp harray)
      exact ⟨.tail _ (.head _), rfl⟩

@[simp] theorem accepts_integer {n : Int} :
    Accepts find mode ⟨key, .integer, demand, since, some (.integer n)⟩ =
      fun value => value = .integer n := by
  funext value
  refine propext (accepts_limited.trans ⟨?_, ?_⟩)
  · rintro ⟨hfits, hholds⟩
    obtain ⟨found, rfl⟩ := Object.ofKind_integer.mp hfits
    exact congrArg _ (of_decide_eq_true hholds)
  · rintro rfl
    exact ⟨Object.ofKind_integer.mpr ⟨n, rfl⟩, decide_eq_true rfl⟩

@[simp] theorem accepts_between {low high : Int} :
    Accepts find mode ⟨key, .integer, demand, since, some (.between low high)⟩ =
      Object.Between low high := by
  funext value
  refine propext (accepts_limited.trans ⟨?_, ?_⟩)
  · rintro ⟨hfits, hholds⟩
    obtain ⟨found, rfl⟩ := Object.ofKind_integer.mp hfits
    exact ⟨found, rfl, of_decide_eq_true hholds⟩
  · rintro ⟨found, rfl, hrange⟩
    exact ⟨Object.ofKind_integer.mpr ⟨found, rfl⟩, decide_eq_true hrange⟩

@[simp] theorem accepts_tenths {n : Int} :
    Accepts find mode ⟨key, .number, demand, since, some (.tenths n)⟩ = Object.Near (n / 10) := by
  funext value
  refine propext (accepts_limited.trans ⟨?_, fun hnear => ?_⟩)
  · rintro ⟨hfits, hholds⟩
    rcases Object.ofKind_numbers.mp hfits with ⟨found, rfl⟩ | ⟨found, rfl⟩
    · exact Limit.near_iff.mpr hholds
    · exact Limit.near_iff.mpr hholds
  · obtain ⟨units, hunits, -⟩ := id hnear
    cases value with
    | integer found => exact ⟨.head _, Limit.near_iff.mp hnear⟩
    | real found => exact ⟨.tail _ (.head _), Limit.near_iff.mp hnear⟩
    | _ => cases hunits

theorem accepts_length {n : Nat} (hkinds : shape.kinds = [.array]) :
    Accepts find mode ⟨key, shape, demand, since, some (.length n)⟩ value ↔
      value.OfLength n ∧ shape.Fits find mode value := by
  refine accepts_limited.trans ⟨?_, ?_⟩
  · rintro ⟨hfits, hholds⟩
    have hkind := hfits.ofKind
    rw [hkinds] at hkind
    obtain ⟨items, rfl⟩ := Object.eq_array_of_kind (List.mem_singleton.mp hkind)
    exact ⟨Object.ofLength_array.mpr (of_decide_eq_true hholds), hfits⟩
  · rintro ⟨⟨items, rfl, hlength⟩, hfits⟩
    exact ⟨hfits, decide_eq_true hlength⟩

@[simp] theorem accepts_array {n : Nat} :
    Accepts find mode ⟨key, .array, demand, since, some (.length n)⟩ = Object.OfLength n := by
  funext value
  refine propext ((accepts_length rfl).trans (and_iff_left_of_imp ?_))
  rintro ⟨items, rfl, -⟩
  exact List.mem_singleton.mpr rfl

@[simp] theorem accepts_numbers {n : Nat} :
    Accepts find mode ⟨key, .numbers, demand, since, some (.length n)⟩ =
      Object.TupleOf find n (Object.OfKind Kind.numbers) :=
  funext fun _ => propext (accepts_length rfl)

@[simp] theorem accepts_integers {n : Nat} :
    Accepts find mode ⟨key, .integers, demand, since, some (.length n)⟩ =
      Object.TupleOf find n (Object.OfKind [.integer]) :=
  funext fun _ => propext (accepts_length rfl)

@[simp] theorem accepts_strings {n : Nat} :
    Accepts find mode ⟨key, .strings, demand, since, some (.length n)⟩ =
      Object.TupleOf find n (Object.OfKind Kind.strings) :=
  funext fun _ => propext (accepts_length rfl)

end Accepts

/-! ### Entries -/

variable {header : Dict} {c : String} {rule : Rule}

theorem run_checkLimit_eq_ok {limit? : Option Limit} :
    (checkLimit site limit? value).run find = .ok () ↔
      ∀ limit, limit? = some limit → limit.holds value = true := by
  cases limit? with
  | none => simp [checkLimit, run]
  | some limit => simp [checkLimit, run_require_eq_ok]

theorem run_checkAge_eq_ok {since : Version} :
    (Inquiry.ofExcept (p.checkAge site since)).run find = .ok () ↔ p.Permits since := by
  rw [Profile.permits_iff, Profile.checkAge]
  cases p.refuses since <;> simp [Inquiry.ofExcept, run]

theorem run_check_eq_none : (rule.check p c header).run find = .ok none ↔
    (Container.mk find p header).Omits rule := by
  have absent : (if rule.isRequired p header then Inquiry.fail (.missingEntry ⟨c, rule.key⟩)
      else return (none : Option Entry)).run find = .ok none ↔
        rule.isRequired p header = false := by
    cases rule.isRequired p header <;> simp [run]
  unfold check Container.Omits Container.Absent
  cases hget : Dict.get? header (Text.Utf8.encode rule.key) with
  | none =>
    refine absent.trans (and_iff_left ?_).symm
    intro stored hstored
    cases hstored
  | some stored =>
    simp only [Option.some.injEq, forall_eq']
    constructor
    · intro h
      obtain ⟨value?, hvalue, h⟩ := exists_of_run_bind h
      cases value? with
      | none =>
        refine ⟨absent.mp h, ?_⟩
        rcases run_valueIfAny_eq_none.mp hvalue with rfl | ⟨-, habsent⟩
        · exact .inl rfl
        · exact habsent
      | some value =>
        obtain ⟨_, -, h⟩ := exists_of_run_bind h
        obtain ⟨_, -, h⟩ := exists_of_run_bind h
        obtain ⟨_, -, h⟩ := exists_of_run_bind h
        cases h
    · rintro ⟨hrequired, habsent⟩
      rw [run_bind_of_run (run_valueIfAny_eq_none.mpr (.inr ⟨hrequired, habsent⟩))]
      exact absent.mpr hrequired

/-! An entry that is required and absent is missing, or what it leads to is. -/

section Required

variable (hrequired : rule.isRequired p header = true)

include hrequired

theorem run_check_of_get?_eq_none (hget : Dict.get? header (Text.Utf8.encode rule.key) = none) :
    (rule.check p c header).run find = .error (.missingEntry ⟨c, rule.key⟩) := by
  unfold check
  rw [hget, hrequired]
  rfl

theorem run_check_of_null (hget : Dict.get? header (Text.Utf8.encode rule.key) = some .null) :
    (rule.check p c header).run find = .error (.missingEntry ⟨c, rule.key⟩) := by
  unfold check
  rw [hget, hrequired]
  rfl

theorem run_check_of_strays {stored : Object} {ids : List ObjectId} {id : ObjectId}
    (hget : Dict.get? header (Text.Utf8.encode rule.key) = some stored)
    (hstrays : Strays find ids stored id) (hhops : ids.length ≤ maxHops) :
    (rule.check p c header).run find = .error (.dangling ⟨c, rule.key⟩ id) := by
  have htarget : (target stored).run find = .ok (.dangling id) :=
    run_target_eq_dangling.mpr ⟨ids, hhops, hstrays⟩
  unfold check valueIfAny
  simp only [hget, hrequired, bind_assoc]
  rw [run_bind_of_run htarget]
  rfl

theorem run_check_of_absent (habsent : (Container.mk find p header).Absent rule.key) :
    ∃ fault, (rule.check p c header).run find = .error fault ∧ fault.IsLack ⟨c, rule.key⟩ := by
  cases hget : Dict.get? header (Text.Utf8.encode rule.key) with
  | none => exact ⟨_, run_check_of_get?_eq_none hrequired hget, .missing⟩
  | some stored =>
    rcases habsent stored hget with rfl | ⟨ids, id, hhops, hstrays⟩
    · exact ⟨_, run_check_of_null hrequired hget, .missing⟩
    · exact ⟨_, run_check_of_strays hrequired hget hstrays hhops, .dangling⟩

end Required

/-- What is found where an entry is not absent does not depend on whether it is required. -/
theorem run_check_of_not_absent {header' : Dict}
    (hnot : ¬ (Container.mk find p header).Absent rule.key)
    (hget : Dict.get? header' (Text.Utf8.encode rule.key) =
      Dict.get? header (Text.Utf8.encode rule.key)) :
    (rule.check p c header').run find = (rule.check p c header).run find := by
  unfold check
  rw [hget]
  cases hstored : Dict.get? header (Text.Utf8.encode rule.key) with
  | none =>
    refine absurd (fun stored hsome => ?_) hnot
    rw [hstored] at hsome
    cases hsome
  | some stored =>
    have hpresent : ¬ stored.Absent find := by
      refine fun habsent => hnot fun found hfound => ?_
      rw [hstored] at hfound
      cases hfound
      exact habsent
    dsimp only
    rw [run_bind, run_bind, run_valueIfAny_of_not_absent hpresent _ _ (rule.isRequired p header),
      ← run_bind, ← run_bind]
    apply run_bind_congr
    intro value? hvalue
    cases value? with
    | none =>
      rcases run_valueIfAny_eq_none.mp hvalue with rfl | ⟨-, habsent⟩
      · exact absurd (.inl rfl) hpresent
      · exact absurd habsent hpresent
    | some value => rfl

/-- There is an entry, which is usable and permitted, and its value is accepted. -/
theorem run_check_eq_some {stored : Object} :
    (rule.check p c header).run find = .ok (some ⟨stored, value⟩) ↔ p.Permits rule.introduced ∧
      (Container.mk find p header).Usable rule.key stored value ∧
      rule.Accepts find p.mode value := by
  have absent : (if rule.isRequired p header then Inquiry.fail (.missingEntry ⟨c, rule.key⟩)
      else return (none : Option Entry)).run find ≠ .ok (some ⟨stored, value⟩) := by
    cases rule.isRequired p header <;> simp [run]
  unfold check Container.Usable
  constructor
  · intro h
    cases hget : Dict.get? header (Text.Utf8.encode rule.key) with
    | none => rw [hget] at h; exact absurd h absent
    | some found =>
      rw [hget] at h
      obtain ⟨value?, hvalue, h⟩ := exists_of_run_bind h
      cases value? with
      | none => exact absurd h absent
      | some value =>
        obtain ⟨_, hshape, h⟩ := exists_of_run_bind h
        obtain ⟨_, hlimit, h⟩ := exists_of_run_bind h
        obtain ⟨_, hage, h⟩ := exists_of_run_bind h
        cases h
        exact ⟨run_checkAge_eq_ok.mp hage, ⟨rfl, run_valueIfAny_eq_some.mp hvalue⟩,
          Shape.run_check_eq_ok.mp hshape, run_checkLimit_eq_ok.mp hlimit⟩
  · rintro ⟨hage, ⟨hget, husable⟩, hshape, hlimit⟩
    simp only [hget]
    rw [run_bind_of_run (run_valueIfAny_eq_some.mpr husable)]
    dsimp only
    rw [run_bind_of_run (Shape.run_check_eq_ok.mpr hshape),
      run_bind_of_run (run_checkLimit_eq_ok.mpr hlimit),
      run_bind_of_run (run_checkAge_eq_ok.mpr hage)]
    rfl

/-- A value that stands in its place is found there. -/
theorem run_check_of_direct (hpermits : p.Permits rule.introduced)
    (hget : Dict.get? header (Text.Utf8.encode rule.key) = some value)
    (hdirect : value.reference? = none) (hnull : value ≠ .null)
    (haccepts : rule.Accepts find p.mode value) :
    (rule.check p c header).run find = .ok (some ⟨value, value⟩) :=
  run_check_eq_some.mpr
    ⟨hpermits, ⟨hget, ⟨[], Nat.zero_le _, .direct hdirect⟩, hnull⟩, haccepts⟩

/-- What is done with the finding of a rule ends well if the rule finds no fault and it ends well
for what the rule has found. -/
theorem run_bind_eq_ok {f : Option Entry → Inquiry Unit} :
    (rule.check p c header >>= f).run find = .ok () ↔
      (Container.mk find p header).Omits rule ∧ (f none).run find = .ok () ∨
        p.Permits rule.introduced ∧ ∃ stored value,
          (Container.mk find p header).Usable rule.key stored value ∧
            rule.Accepts find p.mode value ∧ (f (some ⟨stored, value⟩)).run find = .ok () := by
  constructor
  · intro h
    obtain ⟨found?, hfound, h⟩ := exists_of_run_bind h
    cases found? with
    | none => exact .inl ⟨run_check_eq_none.mp hfound, h⟩
    | some entry =>
      obtain ⟨hpermits, husable, haccepts⟩ := run_check_eq_some.mp hfound
      exact .inr ⟨hpermits, entry.stored, entry.value, husable, haccepts, h⟩
  · rintro (⟨homits, h⟩ | ⟨hpermits, stored, value, husable, haccepts, h⟩)
    · rw [run_bind_of_run (run_check_eq_none.mpr homits)]
      exact h
    · rw [run_bind_of_run (run_check_eq_some.mpr ⟨hpermits, husable, haccepts⟩)]
      exact h

end Rule

/-- The container has what the rule asks for under its key. -/
def Container.Obeys (k : Container) (rule : Rule) : Prop :=
  k.Omits rule ∨
    k.profile.Permits rule.introduced ∧ k.Holds rule.key (rule.Accepts k.find k.profile.mode)

variable {header : Dict} {c : String}

theorem Rule.run_obey_iff {rule : Rule} :
    (do let _ ← rule.check p c header; return : Inquiry Unit).run find = .ok () ↔
      (Container.mk find p header).Obeys rule := by
  rw [Rule.run_bind_eq_ok]
  simp [Container.Obeys, Container.Holds, run]

theorem Rule.exists_run_iff {rule : Rule} :
    (∃ found?, (rule.check p c header).run find = .ok found?) ↔
      (Container.mk find p header).Obeys rule := by
  rw [← Rule.run_obey_iff (c := c)]
  constructor
  · rintro ⟨found?, hfound⟩
    rw [run_bind_of_run hfound]
    rfl
  · intro h
    obtain ⟨found?, hfound, -⟩ := exists_of_run_bind h
    exact ⟨found?, hfound⟩

/-- A table is the conjunction of its rules. -/
theorem RuleTable.run_check_iff {table : RuleTable} :
    (table.check p header).run find = .ok () ↔
      ∀ rule ∈ table.rules, (Container.mk find p header).Obeys rule := by
  rw [RuleTable.check, run_forM_eq_ok]
  exact forall₂_congr fun rule _ => Rule.run_obey_iff

/-! ### Demands -/

theorem Dict.filteredOnlyBy_iff {filter : String} :
    filteredOnlyBy header filter = true ↔ (Container.mk find p header).SoleFilter filter := by
  unfold filteredOnlyBy Container.SoleFilter
  split <;> simp_all

namespace Container

variable (k : Container)

/-- When a demand is made of a container. -/
def Demands : Demand → Prop
  | .never => False
  | .always => True
  | .inStrictMode => k.profile.mode = .strict
  | .inOldestVersion => k.profile.version = .v1_0
  | .unlessJpx => ¬ k.SoleFilter "JPXDecode"
  | .unlessColoured => ¬ (k.SoleFilter "JPXDecode" ∨
      k.profile.mode = .relaxed ∧ k.SoleFilter "CCITTFaxDecode")

variable {k} {key : String} {shape : Shape} {demand : Demand} {since : Version}
  {limit? : Option Limit} {P : Object → Prop}

theorem holds_demand_iff : demand.holds k.profile k.entries = true ↔ k.Demands demand := by
  have hfilter (filter : String) :
      Dict.filteredOnlyBy k.entries filter = true ↔ k.SoleFilter filter :=
    Dict.filteredOnlyBy_iff
  cases demand with
  | unlessJpx => simp [Demand.holds, Demands, ← hfilter, Demand.jpx]
  | unlessColoured =>
    simp [Demand.holds, Demands, ← hfilter, Demand.jpx, Demand.fax, imp_iff_not_or]
  | _ => simp [Demand.holds, Demands]

theorem permits_v1_0 (p : Profile) : p.Permits .v1_0 := .inr (Nat.zero_le _)

@[simp] theorem omits_never : k.Omits ⟨key, shape, .never, since, limit?⟩ ↔ k.Absent key := by
  simp [Omits, Rule.isRequired, Demand.holds]

/-- What has been demanded from the first version on may be absent where the demand is not made. -/
@[simp] theorem omits_demanded : k.Omits ⟨key, shape, demand, .v1_0, limit?⟩ ↔
    ¬ k.Demands demand ∧ k.Absent key := by
  simp [Omits, Rule.isRequired, Profile.covers_v1_0, ← holds_demand_iff]

@[simp] theorem obeys_never : k.Obeys ⟨key, shape, .never, since, limit?⟩ ↔
    k.AllowsSince since key (Rule.Accepts k.find k.profile.mode
      ⟨key, shape, .never, since, limit?⟩) := by
  rw [Obeys, omits_never]
  rfl

@[simp] theorem obeys_demanded : k.Obeys ⟨key, shape, demand, .v1_0, limit?⟩ ↔
    k.HoldsIf (k.Demands demand) key (Rule.Accepts k.find k.profile.mode
      ⟨key, shape, demand, .v1_0, limit?⟩) := by
  simp [Obeys, HoldsIf, omits_demanded, permits_v1_0]

@[simp] theorem holdsIf_true : k.HoldsIf True key P ↔ k.Holds key P := by simp [HoldsIf]

@[simp] theorem holdsIf_false : k.HoldsIf False key P ↔ k.Allows key P := by
  simp [HoldsIf, Allows]

/-- Nothing usable is absent. -/
theorem Usable.not_absent {stored : Object} (h : k.Usable key stored value) : ¬ k.Absent key := by
  obtain ⟨hget, hresolves, hnull⟩ := h
  exact fun habsent => hresolves.not_absent hnull (habsent stored hget)

/-- A key has one usable value at most. -/
theorem Usable.unique {stored stored' value' : Object} (h : k.Usable key stored value)
    (h' : k.Usable key stored' value') : value' = value := by
  obtain ⟨hget, hresolves, -⟩ := h
  obtain ⟨hget', hresolves', -⟩ := h'
  cases hget.symm.trans hget'
  exact hresolves.stands.unique hresolves'.stands

end Container

/-- A rule that finds no fault reports nothing exactly where the entry is absent. -/
theorem Rule.absent_iff_of_run {rule : Rule} {found? : Option Entry}
    (h : (rule.check p c header).run find = .ok found?) :
    (Container.mk find p header).Absent rule.key ↔ found?.isNone = true := by
  cases found? with
  | none => simp [(run_check_eq_none.mp h).2]
  | some entry => simp [(run_check_eq_some.mp h).2.1.not_absent]

end PdfConformance

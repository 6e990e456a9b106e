import PdfConformance.Proofs.Inquiry.Agreement
import PdfConformance.Rule.Check

/-! # Checks of rules that agree up to excused faults

Checking is carried over from its steps: `Rule.check_agree` compares two rules for the entry under
one key, as two profiles and two containers have them. What the faults are put to may differ only
where all of them are excused. -/

namespace PdfConformance

open Inquiry

variable {excused : Fault → Prop} {p q : Profile} {a b : Site}

theorem valueOf_agree (h : Interchangeable excused a b) (stored : Object) :
    AgreeUpTo excused Eq (valueOf a stored) (valueOf b stored) := by
  refine (AgreeUpTo.refl (target stored)).bind_eq fun target => ?_
  cases target with
  | found value => exact .refl _
  | dangling id => exact .failAt h fun site => .dangling site id
  | endless id hops => exact .failAt h fun site => .endless site (some id) hops .hops

/-- What leads nowhere is a fault where the value is required, and else passed over. -/
theorem valueIfAny_agree (h : Interchangeable excused a b) {required required' : Bool}
    (hrequired : required' = true → required = true)
    (hlifted : required = true → required' = true ∨ ∀ id, excused (.dangling a id))
    (stored : Object) :
    AgreeUpTo excused Eq (valueIfAny a required stored) (valueIfAny b required' stored) := by
  refine (AgreeUpTo.refl (target stored)).bind_eq fun target => ?_
  cases target with
  | found value => cases value <;> exact .refl _
  | endless id hops => exact .failAt h fun site => .endless site (some id) hops .hops
  | dangling id =>
    cases required' with
    | true =>
      rw [hrequired rfl]
      exact .failAt h fun site => .dangling site id
    | false =>
      cases required with
      | false => exact .refl _
      | true =>
        rcases hlifted rfl with hfalse | hexcused
        · cases hfalse
        · exact .excused _ (hexcused id)

namespace Shape

theorem checkElement_agree (h : Interchangeable excused a b) (shape : Shape) (item : Object) :
    AgreeUpTo excused Eq (shape.checkElement a item) (shape.checkElement b item) :=
  (valueOf_agree h item).bind_eq fun value =>
    .requireAt h _ fun site => .wrongKind site shape value.kind

theorem checkName_agree (h : Interchangeable excused a b) (known : List String) (name : String) :
    AgreeUpTo excused Eq (ColourSpace.checkName a known name)
      (ColourSpace.checkName b known name) := by
  unfold ColourSpace.checkName
  split
  · exact .failAt h fun site => .constraint site .patternColourSpace
  · exact .requireAt h _ fun site => .constraint site .unknownColourSpace

theorem checkItems_agree (h : Interchangeable excused a b) (shape : Shape) (items : List Object) :
    AgreeUpTo excused Eq (shape.checkItems a items) (shape.checkItems b items) := by
  unfold checkItems
  split
  · cases items with
    | nil => exact .failAt h fun site => .constraint site .emptyColourSpace
    | cons first rest =>
      refine (valueOf_agree h first).bind_eq fun value => ?_
      cases value.nameText? with
      | some name => exact checkName_agree h _ name
      | none => exact .failAt h fun site => .wrongKind site _ value.kind
  · refine AgreeUpTo.bind_eq ?_ fun _ => ?_
    · exact .requireAt h _ fun site => .constraint site .rectangleLength
    · exact .forM fun item _ => checkElement_agree h _ item
  · split
    · exact .forM fun item _ => checkElement_agree h _ item
    · exact .refl _

/-- Two profiles read the same dates, or it is excused to find that the first reads none. -/
def DatesAgree (excused : Fault → Prop) (p q : Profile) (a b : Site) : Prop :=
  ∀ content, AgreeUpTo excused Eq
    (.require (Timestamp.read? p.mode content).isSome (.constraint a .invalidDate))
    (.require (Timestamp.read? q.mode content).isSome (.constraint b .invalidDate))

theorem DatesAgree.of_mode (h : Interchangeable excused a b) (hmode : p.mode = q.mode) :
    DatesAgree excused p q a b := by
  intro content
  rw [hmode]
  exact .requireAt h _ fun site => .constraint site .invalidDate

/-- A shape is checked the same at both sites, by profiles that read the same dates. -/
theorem check_agree (h : Interchangeable excused a b) (hdates : DatesAgree excused p q a b)
    (shape : Shape) (value : Object) :
    AgreeUpTo excused Eq (shape.check p a value) (shape.check q b value) := by
  refine AgreeUpTo.bind_eq ?_ fun _ => ?_
  · exact .requireAt h _ fun site => .wrongKind site shape value.kind
  cases value with
  | string form content =>
    simp only [checkContents]
    split
    · exact hdates content
    · exact .refl _
  | name spelling =>
    simp only [checkContents]
    split
    · exact checkName_agree h _ _
    · exact .refl _
  | array items => exact checkItems_agree h shape items
  | _ => exact .refl _

end Shape

namespace Rule

/-- The second rule, of the container `c'` under `q`, asks no more of the entry under the key than
the first does, of `c` under `p`; where it asks less it is excused that the first finds a fault. -/
structure Eases (excused : Fault → Prop) (p q : Profile) (c c' : String) (header : Dict)
    (rule rule' : Rule) : Prop where
  place : Interchangeable excused c c'
  key : rule'.key = rule.key
  shape : rule'.shape = rule.shape
  dates : Shape.DatesAgree excused p q ⟨c, rule.key⟩ ⟨c', rule.key⟩
  required : rule'.isRequired q header = true → rule.isRequired p header = true
  lifted : rule.isRequired p header = true → rule'.isRequired q header = true ∨
    excused (.missingEntry ⟨c, rule.key⟩) ∧ ∀ id, excused (.dangling ⟨c, rule.key⟩ id)
  limit : rule'.limit? = rule.limit? ∨ rule'.limit? = none ∧ ∀ fault, excused fault
  age : AgreeUpTo excused Eq (.ofExcept (p.checkAge ⟨c, rule.key⟩ rule.introduced))
    (.ofExcept (q.checkAge ⟨c', rule.key⟩ rule'.introduced))

variable {c c' : String} {header : Dict} {rule rule' : Rule}

theorem Eases.site (h : Eases excused p q c c' header rule rule') :
    Interchangeable excused (⟨c, rule.key⟩ : Site) ⟨c', rule.key⟩ :=
  h.place.map (Site.mk · rule.key)

theorem Eases.checkLimit (h : Eases excused p q c c' header rule rule') (value : Object) :
    AgreeUpTo excused Eq (checkLimit ⟨c, rule.key⟩ rule.limit? value)
      (checkLimit ⟨c', rule.key⟩ rule'.limit? value) := by
  rcases h.limit with heq | ⟨hnone, hall⟩
  · rw [heq]
    cases rule.limit? with
    | none => exact .refl _
    | some limit => exact .requireAt h.site _ fun site => .constraint site limit.reason
  · rw [hnone]
    cases rule.limit? with
    | none => exact .refl _
    | some limit =>
      have hlifted : AgreeUpTo excused Eq
          (Inquiry.require (limit.holds value) (.constraint ⟨c, rule.key⟩ limit.reason))
          (Inquiry.require true (.constraint ⟨c, rule.key⟩ limit.reason)) :=
        .require (hall _) fun _ => rfl
      exact hlifted

/-- A rule asks as much of one container as of another. -/
protected theorem Eases.refl (p : Profile) (header : Dict) (rule : Rule)
    (h : Interchangeable excused c c') : Eases excused p p c c' header rule rule where
  place := h
  key := rfl
  shape := rfl
  dates := .of_mode (h.map (Site.mk · rule.key)) rfl
  required := id
  lifted := .inl
  limit := .inl rfl
  age := by
    unfold Profile.checkAge
    split
    · exact .failAt h fun container => .tooNew ⟨container, rule.key⟩ rule.introduced p.version
    · exact .refl _

/-- What happens where the entry is absent. -/
theorem Eases.absent (h : Eases excused p q c c' header rule rule') :
    AgreeUpTo excused Eq
      (if rule.isRequired p header then
        Inquiry.fail (.missingEntry ⟨c, rule.key⟩) else return (none : Option Entry))
      (if rule'.isRequired q header then
        Inquiry.fail (.missingEntry ⟨c', rule.key⟩) else return (none : Option Entry)) := by
  by_cases hp : rule.isRequired p header = true
  · rw [if_pos hp]
    rcases h.lifted hp with hq | ⟨hexcused, -⟩
    · rw [if_pos hq]
      exact .failAt h.site .missingEntry
    · exact .excused _ hexcused
  · rw [if_neg hp, if_neg fun hq => hp (h.required hq)]
    exact .refl _

theorem check_agree (h : Eases excused p q c c' header rule rule') :
    AgreeUpTo excused Eq (rule.check p c header) (rule'.check q c' header) := by
  simp only [check, h.key, h.shape]
  cases Dict.get? header (Text.Utf8.encode rule.key) with
  | none => exact h.absent
  | some stored =>
    have hdangling (hp : rule.isRequired p header = true) :=
      (h.lifted hp).imp_right fun hexcused => hexcused.2
    refine (valueIfAny_agree h.site h.required hdangling stored).bind_eq fun value? => ?_
    cases value? with
    | none => exact h.absent
    | some value =>
      refine (Shape.check_agree h.site h.dates rule.shape value).bind_eq fun _ => ?_
      refine (h.checkLimit value).bind_eq fun _ => ?_
      exact h.age.bind_eq fun _ => .refl _

end Rule

end PdfConformance

import PdfConformance.Grammar.Parts
import PdfConformance.Proofs.Inquiry.Order
import PdfConformance.Rule.Check

/-! # Rules are checked in an orderly way

Faults tell the truth: `Terms.Tells` is what each sort of fault says of the objects in view. The
faults of following references and of checking rules are shown to say it. -/

namespace PdfConformance

open Inquiry

/-- There is no value under the key. -/
def Lacks (find : ObjectId → Option Object) (header : Dict) (key : String) : Prop :=
  ∀ stored, Dict.get? header (Text.Utf8.encode key) = some stored →
    stored = .null ∨ ∃ id, Astray find stored id

/-- What a fault tells of the objects in view. -/
inductive Terms.Tells (t : Terms) (p : Profile) : Fault → Prop
  /-- No rule demands an entry of what is not known for an image or a form. -/
  | missingEntry (container : String) {header : Dict} {rule : Rule} : t.Header header →
      (container = Grammar.external → rule.demand = .never) →
      rule.isRequired p header = true → Lacks t.find header rule.key →
      Tells t p (.missingEntry ⟨container, rule.key⟩)
  | untagged {header : Dict} : t.Header header → p.mode = .strict →
      Lacks t.find header Grammar.externalSubtype.key →
      Tells t p (.missingEntry ⟨Grammar.external, Grammar.externalSubtype.key⟩)
  | wrongKind (site : Site) (shape : Shape) {found : Kind} : found ≠ .reference →
      Tells t p (.wrongKind site shape found)
  | constraint (site : Site) (reason : Reason) : Tells t p (.constraint site reason)
  | tooNew (container : String) {header : Dict} {rule : Rule} : t.Header header →
      Dict.has header (Text.Utf8.encode rule.key) = true → p.refuses rule.introduced = true →
      Tells t p (.tooNew ⟨container, rule.key⟩ rule.introduced p.version)
  | conflict (container : String) {header : Dict} : t.Header header →
      Dict.has header (Text.Utf8.encode "StructParent") = true →
      Dict.has header (Text.Utf8.encode "StructParents") = true →
      Tells t p (.conflict container "StructParent" "StructParents")
  | missingCompanion (container : String) {header : Dict} : t.Header header →
      Dict.has header (Text.Utf8.encode "PieceInfo") = true → Lacks t.find header "LastModified" →
      Tells t p (.missingCompanion ⟨container, "LastModified"⟩ "PieceInfo")
  | unknownSubtype (container subtype : String) : p.mode = .strict →
      Tells t p (.unknownSubtype container subtype)
  | unsupported (container construct : String) {header : Dict} {stored value : Object} :
      t.Header header →
      Dict.get? header (Text.Utf8.encode Grammar.externalSubtype.key) = some stored →
      Stands t.find stored value → value.nameText? = some "PS" →
      Tells t p (.unsupported container construct)
  | dangling (site : Site) {id : ObjectId} : t.held (.reference id) →
      t.find id = none ∨ t.find id = some .null → Tells t p (.dangling site id)
  | hops (site : Site) {id : ObjectId} {hops : Nat} : t.held (.reference id) →
      hops = maxHops ∨ OnCircle t.find id → Tells t p (.endless site (some id) hops .hops)
  | malformed (site : Site) (reason : Reason) : Tells t p (.malformed site reason)

/-- The faults that tell the truth are among those expected. -/
def Terms.Admits (t : Terms) (p : Profile) : Prop := ∀ fault, t.Tells p fault → t.fault fault

theorem Astray.nothing {find : ObjectId → Option Object} {stored : Object} {id : ObjectId}
    (h : Astray find stored id) : find id = none ∨ find id = some .null := by
  induction h with
  | here hnothing => exact hnothing
  | through _ _ ih => exact ih

variable {α : Type} {t : Terms} {p : Profile}

/-- Ids that lead to a reference lead to what is referred to in the object stored there. -/
theorem transGen_of_mem_cons {find : ObjectId → Option Object} {seen : List ObjectId}
    {id : ObjectId} {stored : Object} (hfind : find id = some stored)
    (hlead : ∀ via ∈ seen, Relation.TransGen (Refers find) via id) :
    ∀ via ∈ id :: seen, ∀ other ∈ stored.ids, Relation.TransGen (Refers find) via other := by
  intro via hvia other hother
  have hrefers : Refers find id other := ⟨stored, hfind, hother⟩
  rcases List.mem_cons.mp hvia with rfl | hvia
  · exact .single hrefers
  · exact (hlead via hvia).tail hrefers

namespace Inquiry.Orderly

/-- A condition on the value of an entry. -/
theorem constrain (ht : t.Admits p) (condition : Bool) (site : Site) (reason : Reason) :
    Orderly t (fun _ => True) (Inquiry.require condition (.constraint site reason)) :=
  (Orderly.require rfl fun _ => ht _ (.constraint site reason)).mono fun _ _ => trivial

/-- A chain of references is followed in an orderly way if its three ends are gone on with in one.
Each id that has been passed leads to whatever the rest of the chain refers to, so that one that is
met again lies on a circle. -/
theorem follow_bind {result : α → Prop} {seen : List ObjectId} {left : Nat} {value : Object}
    {next : Target → Inquiry α} (hheld : t.held value)
    (hlead : ∀ id ∈ seen, ∀ other ∈ value.ids, Relation.TransGen (Refers t.find) id other)
    (hlength : seen.length + left = maxHops)
    (hfound : ∀ target, Stands t.find value target → Orderly t result (next (.found target)))
    (hdangling : ∀ id, Astray t.find value id → t.held (.reference id) →
      Orderly t result (next (.dangling id)))
    (hendless : ∀ id hops, t.held (.reference id) → hops = maxHops ∨ OnCircle t.find id →
      Orderly t result (.pause (next (.endless id hops)))) :
    Orderly t result (follow seen left value >>= next) := by
  induction left generalizing seen value with
  | zero =>
    cases value with
    | reference id => exact hendless id _ hheld (.inl hlength)
    | _ => exact hfound _ (.direct rfl)
  | succ left ih =>
    cases value with
    | reference id =>
      rw [follow]
      by_cases hseen : id ∈ seen
      · rw [if_pos hseen]
        exact hendless id _ hheld (.inr (hlead id hseen id (by simp [Object.ids])))
      · rw [if_neg hseen]
        refine .ask hheld ?_
        cases hfind : t.find id with
        | none => exact hdangling id (.here (.inl hfind)) hheld
        | some stored =>
          by_cases hnull : stored = .null
          · subst hnull
            exact hdangling id (.here (.inr hfind)) hheld
          · have hlead' := transGen_of_mem_cons hfind fun via hvia =>
              hlead via hvia id (by simp [Object.ids])
            have hlength' : (id :: seen).length + left = maxHops := by
              rw [List.length_cons]; omega
            have hrest := ih (t.held_stored hheld hfind) hlead' hlength'
              (fun target h => hfound target (.through hfind hnull h))
              (fun other h => hdangling other (.through hfind h))
            cases stored with
            | null => exact absurd rfl hnull
            | _ => exact hrest
    | _ => exact hfound _ (.direct rfl)

theorem valueOf (ht : t.Admits p) (site : Site) {stored : Object} (hheld : t.held stored) :
    Orderly t (Stands t.find stored) (valueOf site stored) := by
  refine follow_bind hheld (by simp) rfl (fun value h => .done h) ?_ ?_
  · intro id hastray hid
    exact .fail (ht _ (.dangling site hid hastray.nothing)) rfl
  · intro id hops hid hwhy
    exact .giveUp (ht _ (.hops site hid hwhy)) rfl

theorem valueIfAny (ht : t.Admits p) (site : Site) (required : Bool) {stored : Object}
    (hheld : t.held stored) :
    Orderly t (fun
      | none => stored = .null ∨ ∃ id, Astray t.find stored id
      | some value => Stands t.find stored value) (valueIfAny site required stored) := by
  refine follow_bind hheld (by simp) rfl ?_ ?_ ?_
  · intro value hstands
    cases value with
    | null => exact .done (.inl hstands.eq_null)
    | _ => exact .done hstands
  · intro id hastray hid
    cases required with
    | true => exact .fail (ht _ (.dangling site hid hastray.nothing)) rfl
    | false => exact .done (.inr ⟨id, hastray⟩)
  · intro id hops hid hwhy
    exact .giveUp (ht _ (.hops site hid hwhy)) rfl

end Inquiry.Orderly

theorem Object.kind_ne_reference {value : Object} (h : value.reference? = none) :
    value.kind ≠ .reference := by
  intro hkind
  cases value with
  | string form content => cases form <;> cases hkind
  | reference id => cases h
  | _ => cases hkind

namespace Shape

theorem checkElement_orderly (ht : t.Admits p) (site : Site) (shape : Shape) {item : Object}
    (hheld : t.held item) : Orderly t (fun _ => True) (shape.checkElement site item) := by
  refine (Orderly.valueOf ht site hheld).bind fun value hstands => ?_
  refine (Orderly.require rfl fun _ => ?_).mono fun _ _ => trivial
  exact ht _ (.wrongKind site shape (Object.kind_ne_reference hstands.reference?_eq_none))

theorem checkName_orderly (ht : t.Admits p) (site : Site) (known : List String) (name : String) :
    Orderly t (fun _ => True) (ColourSpace.checkName site known name) := by
  unfold ColourSpace.checkName
  split
  · exact .fail (ht _ (.constraint site _)) rfl
  · exact .constrain ht _ site _

theorem checkItems_orderly (ht : t.Admits p) (site : Site) (shape : Shape) {items : List Object}
    (hheld : ∀ item ∈ items, t.held item) :
    Orderly t (fun _ => True) (shape.checkItems site items) := by
  unfold checkItems
  split
  · cases items with
    | nil => exact .fail (ht _ (.constraint site _)) rfl
    | cons first rest =>
      refine (Orderly.valueOf ht site (hheld first List.mem_cons_self)).bind fun value hstands => ?_
      have hkind := Object.kind_ne_reference hstands.reference?_eq_none
      split
      · exact checkName_orderly ht site _ _
      · exact .fail (ht _ (.wrongKind site _ hkind)) rfl
  · refine (Orderly.constrain ht _ site _).bind fun _ _ => ?_
    exact Orderly.forM fun item hitem => checkElement_orderly ht site _ (hheld item hitem)
  · split
    · exact Orderly.forM fun item hitem => checkElement_orderly ht site _ (hheld item hitem)
    · exact .done trivial

theorem checkContents_orderly (ht : t.Admits p) (site : Site) (shape : Shape) {value : Object}
    (hheld : t.held value) : Orderly t (fun _ => True) (shape.checkContents p site value) := by
  unfold checkContents
  split
  · split
    · exact .constrain ht _ site _
    · exact .done trivial
  · split
    · exact checkName_orderly ht site _ _
    · exact .done trivial
  · exact checkItems_orderly ht site shape fun item hitem => t.held_part hheld hitem
  · exact .done trivial

/-- A shape finds no fault only with values of the kinds it admits. -/
theorem check_orderly (ht : t.Admits p) (site : Site) (shape : Shape) {value : Object}
    (hheld : t.held value) (hdirect : value.reference? = none) :
    Orderly t (fun _ => shape.admits value.kind = true) (shape.check p site value) := by
  have hkind := Object.kind_ne_reference hdirect
  refine (Orderly.require rfl fun _ => ht _ (.wrongKind site shape hkind)).bind fun _ hadmits => ?_
  exact (checkContents_orderly ht site shape hheld).mono fun _ _ => hadmits

end Shape

namespace Rule

/-- What a rule tells of its entry where it finds no fault. -/
def Reports (find : ObjectId → Option Object) (header : Dict) (rule : Rule) : Option Entry → Prop
  | none => Lacks find header rule.key
  | some entry => Dict.get? header (Text.Utf8.encode rule.key) = some entry.stored ∧
      Stands find entry.stored entry.value ∧ rule.shape.admits entry.value.kind = true

theorem checkLimit_orderly (ht : t.Admits p) (site : Site) (limit? : Option Limit)
    (value : Object) : Orderly t (fun _ => True) (checkLimit site limit? value) := by
  cases limit? with
  | none => exact .done trivial
  | some limit => exact .constrain ht _ site limit.reason

theorem checkAge_orderly (ht : t.Admits p) (container : String) {header : Dict}
    (hheader : t.Header header) (rule : Rule)
    (hhas : Dict.has header (Text.Utf8.encode rule.key) = true) :
    Orderly t (fun _ => True)
      (.ofExcept (p.checkAge ⟨container, rule.key⟩ rule.introduced)) := by
  unfold Profile.checkAge
  split
  · rename_i hrefuses
    exact .fail (ht _ (.tooNew container hheader hhas hrefuses)) rfl
  · exact .done trivial

theorem check_orderly_of_missing (ht : t.Admits p) (container : String) {header : Dict}
    (hheader : t.Header header) (rule : Rule)
    (hmissing : rule.isRequired p header = true → Lacks t.find header rule.key →
      t.fault (.missingEntry ⟨container, rule.key⟩)) :
    Orderly t (rule.Reports t.find header) (rule.check p container header) := by
  have absent (hlacks : Lacks t.find header rule.key) :
      Orderly t (rule.Reports t.find header)
        (if rule.isRequired p header then Inquiry.fail (.missingEntry ⟨container, rule.key⟩)
          else return none) := by
    split
    · rename_i hrequired
      exact .fail (hmissing hrequired hlacks) rfl
    · exact .done hlacks
  simp only [check]
  cases hget : Dict.get? header (Text.Utf8.encode rule.key) with
  | none => exact absent fun stored h => by rw [hget] at h; cases h
  | some stored =>
    have hheld : t.held stored := hheader.held_part (Dict.mem_values_of_get? hget)
    refine (Orderly.valueIfAny ht _ _ hheld).bind fun value? hvalue => ?_
    cases value? with
    | none => exact absent fun other h => by rw [hget] at h; cases h; exact hvalue
    | some value =>
      have hvalueHeld := Terms.held_of_stands hheld hvalue
      refine (Shape.check_orderly ht _ rule.shape hvalueHeld hvalue.reference?_eq_none).bind
        fun _ hadmits => ?_
      refine (checkLimit_orderly ht _ rule.limit? value).bind fun _ _ => ?_
      have hhas : Dict.has header (Text.Utf8.encode rule.key) = true := by rw [Dict.has, hget]; rfl
      refine (checkAge_orderly ht container hheader rule hhas).bind fun _ _ => ?_
      exact .done ⟨hget, hvalue, hadmits⟩

theorem check_orderly (ht : t.Admits p) (container : String) {header : Dict}
    (hheader : t.Header header) (rule : Rule)
    (hplace : container = Grammar.external → rule.demand = .never) :
    Orderly t (rule.Reports t.find header) (rule.check p container header) :=
  rule.check_orderly_of_missing ht container hheader fun hrequired hlacks =>
    ht _ (.missingEntry container hheader hplace hrequired hlacks)

end Rule

end PdfConformance

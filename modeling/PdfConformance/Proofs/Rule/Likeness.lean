import PdfConformance.Proofs.Grammar
import PdfConformance.Proofs.Inquiry.Likeness
import PdfConformance.Rule.Check

/-! # Checks of rules in two documents

Checking an entry is mirrored by checking the corresponding one: every value is looked at only after
references have been followed, and the shape and the limit of a rule regard only what corresponding
values have in common. The filters of a stream are the exception; the demands of some rules turn on
them. -/

namespace PdfConformance.Likeness

variable {l : Likeness} {header header' : Dict} {stored stored' value value' : Object}

/-- Entries that are alike as they are stored, and whose values correspond. -/
structure LikeEntry (l : Likeness) (entry entry' : Entry) : Prop where
  stored : l.alike entry.stored entry'.stored
  value : l.Values entry.value entry'.value

/-- The rule makes its demand of both containers or of neither. -/
def SameDemand (p : Profile) (header header' : Dict) (rule : Rule) : Prop :=
  rule.demand.holds p header' = rule.demand.holds p header

theorem SameDemand.of_filters (h : SameFilters header header') (p : Profile) (rule : Rule) :
    SameDemand p header header' rule := by
  unfold SameDemand
  cases rule.demand with
  | unlessJpx => simp only [Demand.holds, h Demand.jpx]
  | unlessColoured => simp only [Demand.holds, h Demand.jpx, h Demand.fax]
  | _ => rfl

theorem SameDemand.of_readsFilters {rule : Rule} (h : rule.demand.readsFilters = false)
    (p : Profile) (header header' : Dict) : SameDemand p header header' rule := by
  unfold SameDemand
  cases hdemand : rule.demand with
  | unlessJpx => rw [hdemand] at h; cases h
  | unlessColoured => rw [hdemand] at h; cases h
  | _ => rfl

theorem SameDemand.isRequired_eq {p : Profile} {rule : Rule}
    (h : SameDemand p header header' rule) :
    rule.isRequired p header' = rule.isRequired p header := by
  unfold Rule.isRequired
  rw [h]

namespace Coherent

theorem valueOf (hl : l.Coherent) (site : Site) (h : l.alike stored stored') :
    l.Mirrors l.Values (valueOf site stored) (valueOf site stored') := by
  refine (hl.target h).bind fun target target' htarget => ?_
  cases htarget with
  | found hvalue => exact .done hvalue
  | dangling hfault => exact .error (hfault site)
  | endless hfault => exact .error (hfault site)

theorem valueIfAny (hl : l.Coherent) (site : Site) (required : Bool) (h : l.alike stored stored') :
    l.Mirrors (Option.Rel l.Values) (valueIfAny site required stored)
      (valueIfAny site required stored') := by
  refine (hl.target h).bind fun target target' htarget => ?_
  cases htarget with
  | found hvalue =>
    cases hvalue with
    | null => exact .done .none
    | array hitems => exact .done (.some (.array hitems))
    | dictionary hentries => exact .done (.some (.dictionary hentries))
    | stream hentries hfilters => exact .done (.some (.stream hentries hfilters))
    | boolean => exact .done (.some .boolean)
    | integer => exact .done (.some .integer)
    | real => exact .done (.some .real)
    | name => exact .done (.some .name)
    | string => exact .done (.some .string)
  | dangling hfault =>
    cases required with
    | true => exact .error (hfault site)
    | false => exact .done .none
  | endless hfault => exact .error (hfault site)

theorem checkElement (hl : l.Coherent) (site : Site) (shape : Shape)
    (h : l.alike stored stored') :
    l.Mirrors Eq (shape.checkElement site stored) (shape.checkElement site stored') := by
  refine (hl.valueOf site h).bind fun value value' hvalue => ?_
  simp only [hvalue.kind_eq]
  exact hl.require rfl _ rfl

theorem checkElements (hl : l.Coherent) (site : Site) (shape : Shape)
    {items items' : List Object} (h : List.Forall₂ l.alike items items') :
    l.Mirrors Eq (items.forM (shape.checkElement site)) (items'.forM (shape.checkElement site)) :=
  .forM (h.imp fun _ _ => hl.checkElement site shape)

theorem checkName (hl : l.Coherent) (site : Site) (known : List String) (name : String) :
    l.Mirrors Eq (ColourSpace.checkName site known name)
      (ColourSpace.checkName site known name) := by
  unfold ColourSpace.checkName
  split
  · exact hl.fail _ rfl
  · exact hl.require rfl _ rfl

theorem checkItems (hl : l.Coherent) (site : Site) (shape : Shape) {items items' : List Object}
    (h : List.Forall₂ l.alike items items') :
    l.Mirrors Eq (shape.checkItems site items) (shape.checkItems site items') := by
  cases shape with
  | colourSpace =>
    cases h with
    | nil => exact hl.fail _ rfl
    | cons hfirst _ =>
      refine (hl.valueOf site hfirst).bind fun value value' hvalue => ?_
      simp only [hvalue.nameText?_eq, hvalue.kind_eq]
      cases value.nameText? with
      | none => exact hl.fail _ rfl
      | some name => exact hl.checkName site _ name
  | rectangle =>
    refine (hl.require ?_ _ rfl).bind_eq fun _ => hl.checkElements site _ h
    rw [h.length_eq]
  | numbers => exact hl.checkElements site _ h
  | integers => exact hl.checkElements site _ h
  | strings => exact hl.checkElements site _ h
  | names => exact hl.checkElements site _ h
  | _ => exact .done rfl

theorem checkShape (hl : l.Coherent) (p : Profile) (site : Site) (shape : Shape)
    (h : l.Values value value') :
    l.Mirrors Eq (shape.check p site value) (shape.check p site value') := by
  unfold Shape.check
  rw [h.kind_eq]
  refine (hl.require rfl _ rfl).bind_eq fun _ => ?_
  cases h with
  | array hitems => exact hl.checkItems site shape hitems
  | string =>
    simp only [Shape.checkContents]
    split
    · exact hl.require rfl _ rfl
    · exact .done rfl
  | name =>
    simp only [Shape.checkContents]
    split
    · exact hl.checkName site _ _
    · exact .done rfl
  | _ => exact .done rfl

end Coherent

theorem Values.within_eq (h : l.Values value value') (limit : Limit) :
    limit.holds value' = limit.holds value := by
  cases h with
  | array hitems =>
    cases limit with
    | length n => simp only [Limit.holds, hitems.length_eq]
    | _ => rfl
  | _ => cases limit <;> rfl

namespace Coherent

theorem checkLimit (hl : l.Coherent) (site : Site) (limit? : Option Limit)
    (h : l.Values value value') :
    l.Mirrors Eq (Rule.checkLimit site limit? value) (Rule.checkLimit site limit? value') := by
  cases limit? with
  | none => exact .done rfl
  | some limit => exact hl.require (h.within_eq limit) _ rfl

/-- What happens where an entry is absent does not depend on the document. -/
theorem absent (hl : l.Coherent) (required : Bool) (site : Site) :
    l.Mirrors (Option.Rel l.LikeEntry)
      (if required then Inquiry.fail (.missingEntry site) else return (none : Option Entry))
      (if required then Inquiry.fail (.missingEntry site) else return (none : Option Entry)) := by
  cases required with
  | true => exact hl.fail _ rfl
  | false => exact .done .none

theorem checkAge (hl : l.Coherent) (p : Profile) (site : Site) (since : Version) :
    l.Mirrors Eq (.ofExcept (p.checkAge site since)) (.ofExcept (p.checkAge site since)) := by
  unfold Profile.checkAge
  split
  · exact hl.fail _ rfl
  · exact .done rfl

theorem check (hl : l.Coherent) (p : Profile) (container : String)
    (h : l.arranged header header') {rule : Rule} (hdemand : SameDemand p header header' rule) :
    l.Mirrors (Option.Rel l.LikeEntry) (rule.check p container header)
      (rule.check p container header') := by
  have hget := hl.get? h (Text.Utf8.encode rule.key)
  simp only [Rule.check, hdemand.isRequired_eq]
  generalize Dict.get? header (Text.Utf8.encode rule.key) = stored? at hget ⊢
  generalize Dict.get? header' (Text.Utf8.encode rule.key) = stored?' at hget ⊢
  cases hget with
  | none => exact hl.absent _ _
  | some hstored =>
    refine (hl.valueIfAny _ _ hstored).bind fun value? value?' hvalue? => ?_
    cases hvalue? with
    | none => exact hl.absent _ _
    | some hvalue =>
      refine (hl.checkShape p _ rule.shape hvalue).bind_eq fun _ => ?_
      refine (hl.checkLimit _ rule.limit? hvalue).bind_eq fun _ => ?_
      refine (hl.checkAge p _ rule.introduced).bind_eq fun _ => ?_
      exact .done (.some ⟨hstored, hvalue⟩)

theorem checkTable (hl : l.Coherent) (p : Profile) {table : RuleTable}
    (h : l.arranged header header')
    (hdemand : ∀ rule ∈ table.rules, SameDemand p header header' rule) :
    l.Mirrors Eq (table.check p header) (table.check p header') :=
  .forM_same fun rule hrule =>
    (hl.check p table.container h (hdemand rule hrule)).bind fun _ _ _ => .done rfl

end Coherent

end PdfConformance.Likeness

import PdfConformance.Proofs.Circles
import PdfConformance.Proofs.Object.Indirection
import PdfConformance.Proofs.Reference

/-! # A value may as well be stored under an id of its own

`outcome_indirect`: where no reference leads back to where it came from, it makes no difference to a
verdict whether a value stands in its place or behind a reference. The walks through the two
documents correspond step by step; the one through the second passes the new id besides, and so
names it where it is ended at the value by the limit on its depth. -/

namespace PdfConformance

open Inquiry

/-- The object under the id. -/
def Document.store (doc : Document) (id : ObjectId) (object : Object) : Document :=
  { doc with objects := doc.objects.insert id object }

theorem Document.get?_store (doc : Document) (id other : ObjectId) (object : Object) :
    (doc.store id object).get? other = if other = id then some object else doc.get? other :=
  doc.objects.get?_insert id other object

/-- Nothing refers to the id: neither the object nor any that the document stores. -/
structure Document.Lacks (doc : Document) (object : Object) (id : ObjectId) : Prop where
  unnamed : id ∉ object.ids
  unreferred : ∀ other stored, doc.get? other = some stored → id ∉ stored.ids

/-- A document and an object with `value` stored under the id, and a reference to it where the value
was: within the object or within a stored one. -/
inductive Indirection (doc : Document) (object value : Object) (id : ObjectId) :
    Document → Object → Prop
  | ofObject {object' : Object} : Object.Indirects value id object object' →
      object'.reference? = none → Indirection doc object value id (doc.store id value) object'
  | ofStored {holder : ObjectId} {stored stored' : Object} : doc.get? holder = some stored →
      Object.Indirects value id stored stored' → stored'.reference? = none →
      Indirection doc object value id ((doc.store holder stored').store id value) object

variable {doc doc' : Document} {object object' value : Object} {id : ObjectId}

theorem Document.Lacks.kept (h : doc.Lacks object id) (other : ObjectId) :
    Option.Rel (Object.Kept value id) (doc.get? other) (doc.get? other) := by
  cases hstored : doc.get? other with
  | none => exact .none
  | some stored => exact .some ⟨.refl (h.unreferred other stored hstored), rfl⟩

theorem Object.Indirects.kept (h : Object.Indirects value id object object')
    (hdirect : object'.reference? = none) (hfresh : id ∉ object.ids) :
    Object.Kept value id object object' := by
  refine ⟨⟨hfresh, .inr h⟩, ?_⟩
  rcases h.reference? with ⟨-, rfl⟩ | ⟨hold, hnew⟩
  · cases hdirect
  · exact hnew.trans hold.symm

theorem Indirection.moved (h : Indirection doc object value id doc' object')
    (hdirect : value.reference? = none) (hnull : value ≠ .null) (hfresh : doc.Lacks object id) :
    Moved doc.get? doc'.get? value id ∧ Object.Kept value id object object' := by
  cases h with
  | ofObject hindirects hinside =>
    refine ⟨⟨hdirect, hnull, ?_, ?_, ?_⟩, hindirects.kept hinside hfresh.unnamed⟩
    · exact fun hid => hfresh.unnamed (hindirects.mem_ids_of_mem_value hid)
    · rw [Document.get?_store, if_pos rfl]
    · intro other hne
      rw [Document.get?_store, if_neg hne]
      exact hfresh.kept other
  | @ofStored holder stored stored' hholder hindirects hinside =>
    have hunreferred := hfresh.unreferred holder stored hholder
    refine ⟨⟨hdirect, hnull, ?_, ?_, ?_⟩, .refl hfresh.unnamed, rfl⟩
    · exact fun hid => hunreferred (hindirects.mem_ids_of_mem_value hid)
    · rw [Document.get?_store, if_pos rfl]
    · intro other hne
      rw [Document.get?_store, if_neg hne, Document.get?_store]
      split
      · rename_i heq
        rw [heq, hholder]
        exact .some (hindirects.kept hinside hunreferred)
      · exact hfresh.kept other

/-- What corresponds once a value has been moved. Where a walk is ended by the limit on its depth,
the second may name the new id. -/
def indirectionLikeness (find find' : ObjectId → Option Object) (value : Object) (id : ObjectId) :
    Likeness where
  find
  find'
  alike := Object.Alike value id
  arranged := Likeness.InOrder (Object.Alike value id)
  fault := fun fault fault' => fault' = fault ∨ ∃ site depth,
    fault = .endless site none depth .depth ∧ fault' = .endless site (some id) depth .depth
  excused := fun fault => ∃ site id? depth, fault = .endless site id? depth .cycle
  paced := False
  unexcused := fun hpaced => hpaced.elim

/-- Lists that differ in one place correspond if what stands there does. -/
theorem forall₂_replaced {α : Type} {R : α → α → Prop} {before after : List α} {part part' : α}
    (hsame : ∀ other ∈ before ++ part :: after, R other other) (hpart : R part part') :
    List.Forall₂ R (before ++ part :: after) (before ++ part' :: after) := by
  have hbefore : List.Forall₂ R before before :=
    List.forall₂_same.mpr fun other hother => hsame other (List.mem_append_left _ hother)
  have hafter : List.Forall₂ R after after := List.forall₂_same.mpr fun other hother =>
    hsame other (List.mem_append_right _ (List.mem_cons_of_mem _ hother))
  exact List.rel_append hbefore (.cons hpart hafter)

variable {find find' : ObjectId → Option Object}

/-- The parts of a value that is kept are alike: all but one of them are the same. -/
theorem Object.Kept.values (h : Object.Kept value id object object')
    (hdirect : object.reference? = none) :
    (indirectionLikeness find find' value id).Values object object' := by
  have fresh {part : Object} (hpart : part ∈ object.parts) : id ∉ part.ids :=
    fun hid => h.fresh (mem_ids_of_mem_parts hpart hid)
  have same {part : Object} (hpart : part ∈ object.parts) : Object.Alike value id part part :=
    .refl (fresh hpart)
  rcases h.cause with rfl | hindirects
  · cases object' with
    | reference other => cases hdirect
    | array items => exact .array (List.forall₂_same.mpr fun _ hitem => same hitem)
    | dictionary entries =>
      refine .dictionary (List.forall₂_same.mpr fun _ hentry => ⟨rfl, same ?_⟩)
      exact List.mem_map_of_mem hentry
    | stream header =>
      refine .stream (List.forall₂_same.mpr fun _ hentry => ⟨rfl, same ?_⟩) fun _ => rfl
      exact List.mem_map_of_mem hentry
    | null => exact .null
    | boolean _ => exact .boolean
    | integer _ => exact .integer
    | real _ => exact .real
    | name _ => exact .name
    | string _ _ => exact .string
  · cases hindirects with
    | here =>
      have hsame := h.same
      rw [hdirect] at hsame
      cases hsame
    | item hpart =>
      refine .array (forall₂_replaced (fun _ hitem => same hitem) ⟨fresh ?_, .inr hpart⟩)
      simp [parts]
    | entry hpart =>
      refine .dictionary (forall₂_replaced (fun _ hentry => ⟨rfl, same ?_⟩)
        ⟨rfl, fresh ?_, .inr hpart⟩)
      · exact List.mem_map_of_mem hentry
      · simp [parts]
    | header hpart hshows =>
      refine .stream (forall₂_replaced (fun _ hentry => ⟨rfl, same ?_⟩)
        ⟨rfl, fresh ?_, .inr hpart⟩) (hpart.filteredOnlyBy_eq hshows)
      · exact List.mem_map_of_mem hentry
      · simp [parts]

namespace Moved

/-- A chain of references that does not begin with the new one leads on as it did. -/
theorem chained (hm : Moved find find' value id) :
    (indirectionLikeness find find' value id).Chained (fun via => via) (Object.Kept value id) where
  injective := fun _ _ heq => heq
  values := Object.Kept.values
  reference := by
    intro via stored' h
    have hne : via ≠ id := fun heq => h.fresh (by simp [heq, Object.ids])
    exact ⟨h.eq_of_reference, hm.kept via hne⟩
  dangling := fun _ _ => .inl rfl
  endless := fun _ _ _ => .inl rfl

/-- The new reference leads to the value in one step. -/
theorem faithful (hm : Moved find find' value id) :
    (indirectionLikeness find find' value id).Faithful where
  fault_refl := fun fault _ => .inl rfl
  get? := fun h => h.get?
  length_eq := fun h => (List.Forall₂.length_eq h).symm
  loops := fun h => Likeness.InOrder.loops h
  target := by
    intro stored stored' h
    rcases h.reference? with ⟨hsame, -⟩ | ⟨rfl, rfl⟩
    · exact hm.chained.follow ⟨h, hsame⟩ [] maxHops
    · have hvalue : Object.Kept stored id stored stored := ⟨.refl hm.fresh, rfl⟩
      refine ⟨?_, fun hpaced => hpaced.elim⟩
      change Likeness.Verdicts _ _ ((target stored).run find)
        ((follow [] (31 + 1) (.reference id)).run find')
      rw [target_of_direct hm.direct, run_follow_reference (by simp) hm.stored hm.ne_null,
        follow_of_direct hm.direct]
      exact .ok (.found (hvalue.values hm.direct))

/-- The trail of the second walk is that of the first, but for the new id. -/
def TrailAlike (id : ObjectId) (trail trail' : Trail) : Prop :=
  trail'.depth = trail.depth ∧ trail'.within.filter (· ≠ id) = trail.within

theorem TrailAlike.push {trail trail' : Trail} (h : TrailAlike id trail trail')
    {stored stored' : Object} (hstored : Object.Alike value id stored stored')
    (hdirect : value.reference? = none) :
    TrailAlike id (trail.push stored) (trail'.push stored') := by
  refine ⟨congrArg (· + 1) h.1, ?_⟩
  simp only [Trail.push, List.filter_append, h.2]
  rcases hstored.reference? with ⟨hsame, hne⟩ | ⟨rfl, rfl⟩
  · rw [hsame]
    cases hreference : stored.reference? with
    | none => rfl
    | some other =>
      have hother : other ≠ id := fun heq => hne (by rw [hreference, heq])
      simp [hother]
  · rw [hdirect]
    simp [Object.reference?]

theorem TrailAlike.revisits_eq {trail trail' : Trail} (h : TrailAlike id trail trail')
    {stored stored' : Object} (hsame : stored'.reference? = stored.reference?)
    (hne : stored.reference? ≠ some id) : trail'.revisits stored' = trail.revisits stored := by
  unfold Trail.revisits
  rw [hsame]
  cases hreference : stored.reference? with
  | none => rfl
  | some other =>
    have hother : other ≠ id := fun heq => hne (by rw [hreference, heq])
    simp [← h.2, hother]

def trails (hm : Moved find find' value id) :
    (indirectionLikeness find find' value id).Trails where
  alike := TrailAlike id
  start := ⟨rfl, rfl⟩
  stop := by
    intro trail trail' stored stored' htrail h
    rcases h.reference? with ⟨hsame, hne⟩ | ⟨rfl, rfl⟩
    · have hrevisits := htrail.revisits_eq hsame hne
      refine .inr ⟨hrevisits, fun site => .inl ?_⟩
      simp only [Trail.stop, hrevisits, hsame, htrail.1]
    · have hnot : trail.revisits stored = false := by rw [Trail.revisits, hm.direct]; rfl
      cases hrevisits : trail'.revisits (.reference id) with
      | true =>
        refine .inl ⟨rfl, fun site => ⟨site, some id, trail'.depth, ?_⟩⟩
        simp [Trail.stop, hrevisits, Object.reference?]
      | false =>
        refine .inr ⟨hnot.symm, fun site => .inr ⟨site, trail.depth, ?_, ?_⟩⟩
        · simp [Trail.stop, hnot, hm.direct]
        · simp [Trail.stop, hrevisits, htrail.1, Object.reference?]
  push := fun htrail h => htrail.push h hm.direct

end Moved

/-- A verdict stays the same when a value is moved behind a reference, unless the walk was ended at
the value by the limit on its depth: then the new id is named. -/
theorem outcome_indirect (question : Question) {doc doc' : Document} (p : Profile) (maxDepth : Nat)
    {object object' value : Object} {id : ObjectId} (hdirect : value.reference? = none)
    (hnull : value ≠ .null) (hfresh : doc.Lacks object id)
    (hmoved : Indirection doc object value id doc' object')
    (hacyclic : ∀ other, Reaches doc.get? object other → ¬ OnCircle doc.get? other) :
    question.outcome doc' p maxDepth none object' = question.outcome doc p maxDepth none object ∨
      ∃ site, question.outcome doc p maxDepth none object =
          .error (.endless site none maxDepth .depth) ∧
        question.outcome doc' p maxDepth none object' =
          .error (.endless site (some id) maxDepth .depth) := by
  obtain ⟨hm, hkept⟩ := hmoved.moved hdirect hnull hfresh
  have hmirrors : Likeness.Verdicts (indirectionLikeness doc.get? doc'.get? value id) Eq
      (question.outcome doc p maxDepth none object)
      (question.outcome doc' p maxDepth none object') :=
    question.mirrors hm.faithful hm.trails p maxDepth hkept.toAlike
  generalize hverdict : question.outcome doc p maxDepth none object = verdict at hmirrors ⊢
  generalize hverdict' : question.outcome doc' p maxDepth none object' = verdict' at hmirrors ⊢
  cases hmirrors with
  | ok hab => exact .inl (by rw [hab])
  | error hfault =>
    rcases hfault with rfl | ⟨site, depth, rfl, rfl⟩
    · exact .inl rfl
    · have hdepth : depth = maxDepth := endlessFor_of_outcome hverdict
      subst hdepth
      exact .inr ⟨site, rfl, rfl⟩
  | excused hexcused =>
    -- a circle in the second document would have been one in the first
    obtain ⟨site, id?, depth, rfl⟩ := hexcused
    obtain ⟨other, -, hreaches, hcircle⟩ := endlessFor_of_outcome hverdict'
    exact absurd hcircle (hm.not_onCircle hkept.toAlike hacyclic hreaches)

/-- An image whose soft mask stands in its place; the colour space of the mask is stored. -/
def maskedInPlace : Document where
  header := "1.7"
  trailer := []
  objects := .ofList [
    (⟨1, 0⟩, .stream (stencil ++ [(Text.Utf8.encode "SMask", mask)])),
    (⟨3, 0⟩, .name (Text.Utf8.encode "DeviceGray"))]
where
  size : Dict := [
    (Text.Utf8.encode "Subtype", .name (Text.Utf8.encode "Image")),
    (Text.Utf8.encode "Width", .integer 1),
    (Text.Utf8.encode "Height", .integer 1)]
  stencil : Dict := size ++ [(Text.Utf8.encode "ImageMask", .boolean true)]
  mask : Object := .stream (size ++ [
    (Text.Utf8.encode "ColorSpace", .reference ⟨3, 0⟩),
    (Text.Utf8.encode "BitsPerComponent", .integer 8)])

/-- The same with the soft mask stored under an id of its own. -/
def maskedByReference : Document :=
  (maskedInPlace.store ⟨1, 0⟩ (.stream (maskedInPlace.stencil ++
    [(Text.Utf8.encode "SMask", .reference ⟨2, 0⟩)]))).store ⟨2, 0⟩ maskedInPlace.mask

theorem get?_maskedInPlace (id : ObjectId) : maskedInPlace.get? id =
    if id = ⟨3, 0⟩ then some (.name (Text.Utf8.encode "DeviceGray"))
    else if id = ⟨1, 0⟩ then some (.stream (maskedInPlace.stencil ++
      [(Text.Utf8.encode "SMask", maskedInPlace.mask)]))
    else none := by
  rw [Document.get?, maskedInPlace, ObjectTable.ofList]
  simp only [List.foldl, ObjectTable.get?_insert]
  rfl

/-- References lead to greater numbers, so that they never lead back. -/
theorem not_onCircle_maskedInPlace (id : ObjectId) : ¬ OnCircle maskedInPlace.get? id := by
  have step {id other : ObjectId} (h : Refers maskedInPlace.get? id other) :
      id.number < other.number := by
    obtain ⟨stored, hstored, hother⟩ := h
    rw [get?_maskedInPlace] at hstored
    split at hstored
    · cases hstored
      cases hother
    · split at hstored
      · rename_i heq
        cases hstored
        have hids : other ∈ [(⟨3, 0⟩ : ObjectId)] := hother
        rw [List.mem_singleton.mp hids, heq]
        decide
      · cases hstored
  intro hcircle
  have hlt {id other : ObjectId} (h : Relation.TransGen (Refers maskedInPlace.get?) id other) :
      id.number < other.number := by
    induction h with
    | single h => exact step h
    | tail _ h ih => exact Nat.lt_trans ih (step h)
  exact Nat.lt_irrefl _ (hlt hcircle)

/-- The limit on the depth ends both walks at the mask, where the second names its id. -/
example :
    (Question.external .any).outcome maskedInPlace ⟨.v1_7, .strict⟩ 1 none (.reference ⟨1, 0⟩) =
        .error (.endless ⟨"imageStream", "SMask"⟩ none 1 .depth) ∧
      (Question.external .any).outcome maskedByReference ⟨.v1_7, .strict⟩ 1 none
        (.reference ⟨1, 0⟩) = .error (.endless ⟨"imageStream", "SMask"⟩ (some ⟨2, 0⟩) 1 .depth) :=
  ⟨rfl, rfl⟩

theorem outcome_indirect_softMask :
    (Question.external .any).outcome maskedInPlace ⟨.v1_7, .strict⟩ 2 none (.reference ⟨1, 0⟩) =
        .ok () ∧
      (Question.external .any).outcome maskedByReference ⟨.v1_7, .strict⟩ 2 none
        (.reference ⟨1, 0⟩) = .ok () := by
  have hfresh : maskedInPlace.Lacks (.reference ⟨1, 0⟩) ⟨2, 0⟩ := by
    refine ⟨by decide, fun other stored hstored => ?_⟩
    rw [get?_maskedInPlace] at hstored
    split at hstored
    · cases hstored
      decide
    · split at hstored
      · cases hstored
        decide
      · cases hstored
  have hholder : maskedInPlace.get? ⟨1, 0⟩ = some (.stream (maskedInPlace.stencil ++
      [(Text.Utf8.encode "SMask", maskedInPlace.mask)])) := by
    rw [get?_maskedInPlace]
    rfl
  have hmoved : Indirection maskedInPlace (.reference ⟨1, 0⟩) maskedInPlace.mask ⟨2, 0⟩
      maskedByReference (.reference ⟨1, 0⟩) := by
    refine .ofStored hholder (.header .here fun hfilter => ?_) rfl
    exact absurd hfilter (by decide)
  have hold : (Question.external .any).outcome maskedInPlace ⟨.v1_7, .strict⟩ 2 none
      (.reference ⟨1, 0⟩) = .ok () := by rfl
  refine ⟨hold, ?_⟩
  rcases outcome_indirect (.external .any) ⟨.v1_7, .strict⟩ 2 rfl (by simp [maskedInPlace.mask])
    hfresh hmoved fun other _ => not_onCircle_maskedInPlace other with hsame | ⟨site, hcut, -⟩
  · exact hsame.trans hold
  · rw [hold] at hcut
    cases hcut

end PdfConformance

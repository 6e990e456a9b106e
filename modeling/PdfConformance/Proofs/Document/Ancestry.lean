import Mathlib.Logic.Basic
import Mathlib.Logic.ExistsUnique
import PdfConformance.Inspection

/-! # What a page inherits

A page that lacks a key has the value of the nearest node above it that has the key. `Ascent` tells
how the way up from a page ends by the document alone, and `inherited?_eq_iff` that it ends so when
the nodes are looked at one after the other: what has been passed is remembered, so that the way is
left where it turns back or becomes too long. -/

namespace PdfConformance.Document

variable {doc : Document} {key : String} {page : ObjectId}

/-- The node lacks the key and refers to the node above it. -/
def Ascends (doc : Document) (key : String) (id above : ObjectId) : Prop :=
  ∃ node, doc.get? id = some (.dictionary node) ∧
    Dict.get? node (Text.Utf8.encode key) = none ∧
    Dict.get? node (Text.Utf8.encode "Parent") = some (.reference above)

/-- The way up from the page comes to the node by those `below`, the latest of which comes first. -/
inductive Climbs (doc : Document) (key : String) (page : ObjectId) : List ObjectId → ObjectId → Prop
  | start : Climbs doc key page [] page
  | up {below : List ObjectId} {id above : ObjectId} : Climbs doc key page below id →
      doc.Ascends key id above → Climbs doc key page (id :: below) above

/-- The node is looked at: the way up comes to it, for the first time, and is not too long. -/
structure Visits (doc : Document) (key : String) (page : ObjectId) (below : List ObjectId)
    (id : ObjectId) : Prop where
  climbs : doc.Climbs key page below id
  nodup : (id :: below).Nodup
  length_le : (id :: below).length ≤ 256

/-- How the way up ends: at a node that has the key, at one with no node above it, at one that is not
stored as a dictionary, or before one that has been passed or is one too many. -/
inductive Ascent (doc : Document) (key : String) (page : ObjectId) :
    Except Obstacle (Option Object) → Prop
  | found {below : List ObjectId} {id : ObjectId} {node : Dict} {value : Object} :
      doc.Visits key page below id → doc.get? id = some (.dictionary node) →
      Dict.get? node (Text.Utf8.encode key) = some value → Ascent doc key page (.ok (some value))
  | nowhere {below : List ObjectId} {id : ObjectId} {node : Dict} :
      doc.Visits key page below id → doc.get? id = some (.dictionary node) →
      Dict.get? node (Text.Utf8.encode key) = none →
      (∀ above, Dict.get? node (Text.Utf8.encode "Parent") ≠ some (.reference above)) →
      Ascent doc key page (.ok none)
  | broken {below : List ObjectId} {id : ObjectId} : doc.Visits key page below id →
      (∀ node, doc.get? id ≠ some (.dictionary node)) →
      Ascent doc key page (.error (.brokenNode id))
  | endless {below : List ObjectId} {id above : ObjectId} : doc.Visits key page below id →
      doc.Ascends key id above → (above ∈ id :: below ∨ (id :: below).length = 256) →
      Ascent doc key page (.error (.endlessTree above))

theorem storedNode_of_get? {id : ObjectId} {node : Dict}
    (h : doc.get? id = some (.dictionary node)) : doc.storedNode id = .ok node := by
  simp only [storedNode, h]

theorem storedNode_of_forall_ne {id : ObjectId}
    (h : ∀ node, doc.get? id ≠ some (.dictionary node)) :
    doc.storedNode id = .error (.brokenNode id) := by
  rw [storedNode]
  split
  · rename_i node hstored
    exact absurd hstored (h node)
  · rfl

theorem referenceIn?_eq_some {node : Dict} {name : String} {id : ObjectId} :
    referenceIn? node name = some id ↔
      Dict.get? node (Text.Utf8.encode name) = some (.reference id) := by
  rw [referenceIn?, Option.bind_eq_some_iff]
  constructor
  · rintro ⟨stored, hget, hreference⟩
    cases stored with
    | reference _ => cases hreference; exact hget
    | _ => cases hreference
  · exact fun hget => ⟨_, hget, rfl⟩

/-! ## One node after the other -/

section Steps

variable {left : Nat} {seen : List ObjectId} {node : Dict}

theorem inheritedFrom_of_found {value : Object}
    (h : Dict.get? node (Text.Utf8.encode key) = some value) :
    doc.inheritedFrom (Text.Utf8.encode key) left seen node = .ok (some value) := by
  unfold inheritedFrom
  simp only [h]

theorem inheritedFrom_of_nowhere (h : Dict.get? node (Text.Utf8.encode key) = none)
    (hparent : ∀ above, Dict.get? node (Text.Utf8.encode "Parent") ≠ some (.reference above)) :
    doc.inheritedFrom (Text.Utf8.encode key) left seen node = .ok none := by
  have hnone : referenceIn? node "Parent" = none := by
    cases hreference : referenceIn? node "Parent" with
    | none => rfl
    | some above => exact absurd (referenceIn?_eq_some.mp hreference) (hparent above)
  unfold inheritedFrom
  simp only [h, hnone]

theorem inheritedFrom_of_endless {above : ObjectId}
    (h : Dict.get? node (Text.Utf8.encode key) = none)
    (hparent : Dict.get? node (Text.Utf8.encode "Parent") = some (.reference above))
    (hstop : above ∈ seen ∨ left = 0) :
    doc.inheritedFrom (Text.Utf8.encode key) left seen node = .error (.endlessTree above) := by
  unfold inheritedFrom
  simp only [h, referenceIn?_eq_some.mpr hparent]
  by_cases hseen : above ∈ seen
  · rw [if_pos hseen]
  · rw [if_neg hseen, hstop.resolve_left hseen]

theorem inheritedFrom_of_parent {above : ObjectId}
    (h : Dict.get? node (Text.Utf8.encode key) = none)
    (hparent : Dict.get? node (Text.Utf8.encode "Parent") = some (.reference above))
    (hseen : above ∉ seen) :
    doc.inheritedFrom (Text.Utf8.encode key) (left + 1) seen node =
      doc.storedNode above >>= doc.inheritedFrom (Text.Utf8.encode key) left (above :: seen) := by
  rw [inheritedFrom]
  simp only [h, referenceIn?_eq_some.mpr hparent, if_neg hseen]

end Steps

/-! ## The way up -/

/-- At each node that is looked at, what is to come decides; the nodes passed before make no
difference but to be remembered. -/
theorem Visits.inherited?_eq {below : List ObjectId} {id : ObjectId}
    (h : doc.Visits key page below id) :
    doc.inherited? page key = doc.storedNode id >>=
      doc.inheritedFrom (Text.Utf8.encode key) (256 - (id :: below).length) (id :: below) := by
  obtain ⟨hclimbs, hnodup, hlength⟩ := h
  induction hclimbs with
  | start => rfl
  | @up below id above _ hascends ih =>
    obtain ⟨node, hnode, hlacks, hparent⟩ := hascends
    obtain ⟨hfresh, hnodup⟩ := List.nodup_cons.mp hnodup
    have hleft : 256 - (id :: below).length = 256 - (above :: id :: below).length + 1 := by
      simp only [List.length_cons] at hlength ⊢
      omega
    rw [ih hnodup (Nat.le_of_succ_le hlength), storedNode_of_get? hnode, hleft]
    exact inheritedFrom_of_parent hlacks hparent hfresh

/-- The way up ends as it is found to end. -/
theorem Ascent.inherited?_eq {result : Except Obstacle (Option Object)}
    (h : doc.Ascent key page result) : doc.inherited? page key = result := by
  cases h with
  | found hvisits hnode hvalue =>
    rw [hvisits.inherited?_eq, storedNode_of_get? hnode]
    exact inheritedFrom_of_found hvalue
  | nowhere hvisits hnode hlacks hparent =>
    rw [hvisits.inherited?_eq, storedNode_of_get? hnode]
    exact inheritedFrom_of_nowhere hlacks hparent
  | broken hvisits hbroken =>
    rw [hvisits.inherited?_eq, storedNode_of_forall_ne hbroken]
    rfl
  | endless hvisits hascends hstop =>
    obtain ⟨node, hnode, hlacks, hparent⟩ := hascends
    rw [hvisits.inherited?_eq, storedNode_of_get? hnode]
    exact inheritedFrom_of_endless hlacks hparent (hstop.imp_right fun hlength => by rw [hlength])

/-- The way ends at the node, or goes on to one that has not been passed. -/
theorem Visits.ascent_or_up {below : List ObjectId} {id : ObjectId}
    (h : doc.Visits key page below id) :
    (∃ result, doc.Ascent key page result) ∨ ∃ above, doc.Visits key page (id :: below) above := by
  by_cases hbroken : ∀ node, doc.get? id ≠ some (.dictionary node)
  · exact .inl ⟨_, .broken h hbroken⟩
  obtain ⟨node, hnode⟩ := not_forall_not.mp hbroken
  cases hvalue : Dict.get? node (Text.Utf8.encode key) with
  | some value => exact .inl ⟨_, .found h hnode hvalue⟩
  | none =>
    by_cases hparent : ∀ above, Dict.get? node (Text.Utf8.encode "Parent") ≠ some (.reference above)
    · exact .inl ⟨_, .nowhere h hnode hvalue hparent⟩
    obtain ⟨above, hparent⟩ := not_forall_not.mp hparent
    have hascends : doc.Ascends key id above := ⟨node, hnode, hvalue, hparent⟩
    by_cases hstop : above ∈ id :: below ∨ (id :: below).length = 256
    · exact .inl ⟨_, .endless h hascends hstop⟩
    obtain ⟨hfresh, hroom⟩ := not_or.mp hstop
    have hlength : (above :: id :: below).length ≤ 256 := Nat.lt_of_le_of_ne h.length_le hroom
    exact .inr ⟨above, h.climbs.up hascends, List.nodup_cons.mpr ⟨hfresh, h.nodup⟩, hlength⟩

/-- Every node that is looked at leaves fewer to look at, so that the way does end. -/
theorem Visits.exists_ascent {below : List ObjectId} {id : ObjectId}
    (h : doc.Visits key page below id) : ∃ result, doc.Ascent key page result := by
  generalize hleft : 256 - below.length = left
  induction left generalizing below id with
  | zero =>
    have hlength : (id :: below).length ≤ 256 := h.length_le
    rw [List.length_cons] at hlength
    omega
  | succ left ih =>
    rcases h.ascent_or_up with hends | ⟨above, habove⟩
    · exact hends
    · exact ih habove (by rw [List.length_cons]; omega)

theorem visits_self (doc : Document) (key : String) (page : ObjectId) :
    doc.Visits key page [] page :=
  ⟨.start, by simp, by simp⟩

/-- What is found by looking at one node after the other is how the way up ends. -/
theorem inherited?_eq_iff {result : Except Obstacle (Option Object)} :
    doc.inherited? page key = result ↔ doc.Ascent key page result := by
  refine ⟨?_, Ascent.inherited?_eq⟩
  rintro rfl
  obtain ⟨result, hends⟩ := (visits_self doc key page).exists_ascent
  rwa [hends.inherited?_eq]

/-- It ends in one way. -/
theorem existsUnique_ascent (doc : Document) (key : String) (page : ObjectId) :
    ∃! result, doc.Ascent key page result :=
  ⟨doc.inherited? page key, inherited?_eq_iff.mp rfl, fun _ h => h.inherited?_eq.symm⟩

end PdfConformance.Document

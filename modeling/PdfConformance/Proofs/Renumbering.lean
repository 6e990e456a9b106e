import PdfConformance.Proofs.Cancellation
import PdfConformance.Proofs.Object.Renumbering

/-! # The numbers of objects do not matter

`outcome_renumber`: in a renumbered document a renumbered object gets the same verdict, and where
that names an id, it names the new one. The two walks are in step: ids are compared with one another
only, and a permutation keeps apart what was apart. -/

namespace PdfConformance

open Inquiry

variable {π : Equiv.Perm ObjectId} {doc : Document}

/-- What is in a document corresponds to what it is renumbered to. -/
def renumberingLikeness (doc : Document) (π : Equiv.Perm ObjectId) : Likeness where
  find := doc.get?
  find' := (doc.renumber π).get?
  alike := fun object object' => object' = object.renumber π
  arranged := fun d d' => d' = Object.renumberEntries π d
  fault := fun fault fault' => fault' = fault.renumber π
  excused := fun _ => False
  paced := True
  unexcused := fun _ _ => id

theorem Object.values_renumber {object : Object} (hdirect : object.reference? = none) :
    (renumberingLikeness doc π).Values object (object.renumber π) := by
  cases object with
  | reference id => cases hdirect
  | array items =>
    refine .array ?_
    rw [Object.renumberItems_eq_map, List.forall₂_map_right_iff]
    exact List.forall₂_same.mpr fun _ _ => rfl
  | dictionary entries => exact .dictionary rfl
  | stream header => exact .stream rfl (Dict.filteredOnlyBy_renumberEntries header)
  | null => exact .null
  | boolean _ => exact .boolean
  | integer _ => exact .integer
  | real _ => exact .real
  | name _ => exact .name
  | string _ _ => exact .string

theorem renumberingLikeness_chained (doc : Document) (π : Equiv.Perm ObjectId) :
    (renumberingLikeness doc π).Chained π (renumberingLikeness doc π).alike where
  injective := π.injective
  values := by
    rintro stored _ rfl hdirect
    exact Object.values_renumber hdirect
  reference := by
    rintro via _ rfl
    refine ⟨rfl, ?_⟩
    change Option.Rel _ (doc.get? via) ((doc.renumber π).get? (π via))
    rw [doc.get?_renumber]
    cases doc.get? via with
    | none => exact .none
    | some stored => exact .some rfl
  dangling := fun _ _ => rfl
  endless := fun _ _ _ => rfl

theorem renumberingLikeness_faithful (doc : Document) (π : Equiv.Perm ObjectId) :
    (renumberingLikeness doc π).Faithful where
  fault_refl := by
    intro fault hid
    cases fault with
    | dangling site id => cases hid
    | endless site id? depth bound => cases hid; rfl
    | _ => rfl
  get? := by
    rintro d _ rfl key
    rw [Dict.get?_renumberEntries]
    cases Dict.get? d key with
    | none => exact .none
    | some stored => exact .some rfl
  length_eq := by
    rintro d _ rfl
    rw [Object.renumberEntries_eq_map, List.length_map]
  target := fun halike => (renumberingLikeness_chained doc π).follow halike [] maxHops
  loops := by
    rintro d _ rfl
    apply Likeness.InOrder.loops
    rw [Object.renumberEntries_eq_map, Likeness.InOrder, List.forall₂_map_right_iff]
    exact List.forall₂_same.mpr fun _ _ => ⟨rfl, rfl⟩

/-- The trail with every id on it renumbered. -/
def Trail.renumber (π : Equiv.Perm ObjectId) (trail : Trail) : Trail :=
  { trail with within := trail.within.map π }

theorem Trail.revisits_renumber (trail : Trail) (stored : Object) :
    (trail.renumber π).revisits (stored.renumber π) = trail.revisits stored := by
  rw [revisits, revisits, Object.reference?_renumber]
  cases stored.reference? with
  | none => rfl
  | some id => simp [renumber]

theorem Trail.stop_renumber (trail : Trail) (site : Site) (stored : Object) :
    (trail.renumber π).stop site (stored.renumber π) = (trail.stop site stored).renumber π := by
  rw [stop, stop, revisits_renumber, Object.reference?_renumber]
  rfl

theorem Trail.push_renumber (trail : Trail) (stored : Object) :
    (trail.renumber π).push (stored.renumber π) = (trail.push stored).renumber π := by
  rw [push, push, Object.reference?_renumber]
  cases stored.reference? <;> rfl

def renumberingTrails (doc : Document) (π : Equiv.Perm ObjectId) :
    (renumberingLikeness doc π).Trails where
  alike := fun trail trail' => trail' = trail.renumber π
  start := rfl
  stop := by
    rintro trail _ stored _ rfl rfl
    exact .inr ⟨trail.revisits_renumber stored, fun site => trail.stop_renumber site stored⟩
  push := by
    rintro trail _ stored _ rfl rfl
    exact trail.push_renumber stored

theorem Fault.atHops_renumber (fault : Fault) : (fault.renumber π).atHops = fault.atHops := by
  cases fault with
  | endless site id? depth bound => cases bound <;> rfl
  | _ => rfl

/-- Renumbering a document and an object in it renumbers what the verdict names, and no more. -/
theorem outcome_renumber (question : Question) (doc : Document) (p : Profile) (maxDepth : Nat)
    (patience? : Option Nat) (object : Object) (π : Equiv.Perm ObjectId) :
    question.outcome (doc.renumber π) p maxDepth patience? (object.renumber π) =
      (question.outcome doc p maxDepth patience? object).mapError (Fault.renumber π) := by
  have hl := renumberingLikeness_faithful doc π
  have hmirrors := question.mirrors_along hl.toCoherent (renumberingTrails doc π) (hl.guide p)
    maxDepth (rfl : object.renumber π = object.renumber π) fun _ _ _ _ _ _ => trivial
  have hhops : ∀ fault fault', (renumberingLikeness doc π).fault fault fault' →
      fault'.atHops = fault.atHops := by
    rintro fault _ rfl
    exact fault.atHops_renumber
  have hverdicts := hmirrors.verdicts_within hl.toCoherent trivial hhops
    (question.orderly_open _ p maxDepth object) (question.orderly_open _ p maxDepth _) patience?
  exact hverdicts.eq_mapError trivial fun _ _ hfault => hfault

end PdfConformance

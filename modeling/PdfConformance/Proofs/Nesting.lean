import Mathlib.Data.List.Perm.Subperm
import PdfConformance.Proofs.Question

/-! # The trail alone ends every walk

A stored object is not entered within itself, so a walk nests no deeper than its document has
objects, each as deep as objects are nested, and the object it begins with. `Document.nestingBound`
is such a depth; a greater limit makes no difference. -/

namespace PdfConformance

open Inquiry

namespace Object

mutual

/-- How deep arrays, dictionaries and streams are nested in the object. -/
def nesting : Object → Nat
  | .array items => itemNesting items + 1
  | .dictionary entries => entryNesting entries + 1
  | .stream header => entryNesting header + 1
  | _ => 0

def itemNesting : List Object → Nat
  | [] => 0
  | item :: items => max item.nesting (itemNesting items)

def entryNesting : List (Bytes × Object) → Nat
  | [] => 0
  | (_, value) :: entries => max value.nesting (entryNesting entries)

end

theorem nesting_le_itemNesting {items : List Object} {item : Object} (h : item ∈ items) :
    item.nesting ≤ itemNesting items := by
  induction items with
  | nil => cases h
  | cons first items ih =>
    rw [itemNesting]
    rcases List.mem_cons.mp h with rfl | h
    · exact Nat.le_max_left _ _
    · exact Nat.le_trans (ih h) (Nat.le_max_right _ _)

theorem nesting_le_entryNesting {entries : List (Bytes × Object)} {value : Object}
    (h : value ∈ entries.map Prod.snd) : value.nesting ≤ entryNesting entries := by
  induction entries with
  | nil => cases h
  | cons first entries ih =>
    rw [entryNesting]
    rcases List.mem_cons.mp h with rfl | h
    · exact Nat.le_max_left _ _
    · exact Nat.le_trans (ih h) (Nat.le_max_right _ _)

/-- The parts of a container are nested less deep. -/
theorem nesting_lt_of_mem_parts {container part : Object} (h : part ∈ container.parts) :
    part.nesting < container.nesting := by
  cases container with
  | array items => exact Nat.lt_succ_of_le (nesting_le_itemNesting h)
  | dictionary entries => exact Nat.lt_succ_of_le (nesting_le_entryNesting h)
  | stream header => exact Nat.lt_succ_of_le (nesting_le_entryNesting h)
  | _ => cases h

end Object

namespace Document

/-- How deep the stored objects are nested at most. -/
def nesting (doc : Document) : Nat := Object.itemNesting (doc.objects.entries.map Prod.snd)

theorem nesting_le {doc : Document} {id : ObjectId} {stored : Object}
    (h : doc.get? id = some stored) : stored.nesting ≤ doc.nesting := by
  obtain ⟨before, after, hentries, -⟩ := List.lookup_eq_some_iff.mp h
  refine Object.nesting_le_itemNesting ?_
  rw [hentries]
  simp

theorem mem_keys {doc : Document} {id : ObjectId} {stored : Object}
    (h : doc.get? id = some stored) : id ∈ doc.objects.entries.map Prod.fst := by
  obtain ⟨before, after, hentries, -⟩ := List.lookup_eq_some_iff.mp h
  rw [hentries]
  simp

/-- No walk from the object nests deeper than this. -/
def nestingBound (doc : Document) (object : Object) : Nat :=
  (doc.objects.size + 1) * (max object.nesting doc.nesting + 1)

end Document

theorem Stands.nesting_le {doc : Document} {id : ObjectId} {value : Object}
    (h : Stands doc.get? (.reference id) value) : value.nesting ≤ doc.nesting := by
  generalize hstored : Object.reference id = stored at h
  induction h generalizing id with
  | direct hdirect => subst hstored; cases hdirect
  | @through _ stored _ hfind _ hrest ih =>
    cases stored with
    | reference next => exact ih rfl
    | _ => rw [hrest.eq_of_direct rfl]; exact Document.nesting_le hfind

variable {doc : Document}

/-- The walk does not end for the depth of nesting. -/
def nestingTerms (doc : Document) : Terms where
  find := doc.get?
  held := fun _ => True
  held_part := fun _ _ => trivial
  held_stored := fun _ _ => trivial
  fault := fun fault => ∀ site id? depth, fault ≠ .endless site id? depth .depth

theorem nestingTerms_admits (p : Profile) : (nestingTerms doc).Admits p := by
  intro fault htells site id? depth hfault
  subst hfault
  cases htells

/-- The stored objects on the trail are distinct objects of the document. -/
structure Trail.DistinctIn (doc : Document) (trail : Trail) : Prop where
  nodup : trail.within.Nodup
  stored : ∀ id ∈ trail.within, id ∈ doc.objects.entries.map Prod.fst

theorem Trail.DistinctIn.length_le {trail : Trail} (h : trail.DistinctIn doc) :
    trail.within.length ≤ doc.objects.size := by
  have hle := (List.subperm_of_subset h.nodup h.stored).length_le
  simpa [ObjectTable.size] using hle

theorem Trail.DistinctIn.push {trail : Trail} {stored value : Object} (h : trail.DistinctIn doc)
    (hrevisits : trail.revisits stored = false) (hstands : Stands doc.get? stored value) :
    (trail.push stored).DistinctIn doc := by
  cases stored with
  | reference id =>
    have hnot : id ∉ trail.within := by simpa using hrevisits
    have hkey : id ∈ doc.objects.entries.map Prod.fst := by
      cases hstands with
      | direct hdirect => cases hdirect
      | through hfind _ _ => exact Document.mem_keys hfind
    refine ⟨List.nodup_cons.mpr ⟨hnot, h.nodup⟩, fun other hother => ?_⟩
    rcases List.mem_cons.mp hother with rfl | hother
    · exact hkey
    · exact h.stored other hother
  | _ => exact ⟨h.nodup, h.stored⟩

/-- The levels that are left suffice for the objects that are not on the trail, each nested as deep
as any, and for what is nested in the stored value. -/
structure Trail.HasRoom (doc : Document) (levels : Nat) (trail : Trail) (stored : Object) :
    Prop where
  distinct : trail.DistinctIn doc
  lt_levels :
    (doc.objects.size - trail.within.length) * doc.nesting + stored.nesting < levels

theorem Trail.HasRoom.stop_ne_depth {levels : Nat} {trail : Trail} {stored : Object}
    (h : trail.HasRoom doc levels stored) (hwhy : levels = 0 ∨ trail.revisits stored = true)
    (site site' : Site) (id? : Option ObjectId) (depth : Nat) :
    trail.stop site stored ≠ .endless site' id? depth .depth := by
  have hlevels : levels ≠ 0 := by have := h.lt_levels; omega
  have hrevisits : trail.revisits stored = true := hwhy.resolve_left hlevels
  simp [stop, hrevisits]

theorem Trail.HasRoom.push {levels : Nat} {trail : Trail} {stored value part : Object}
    (h : trail.HasRoom doc (levels + 1) stored) (hrevisits : trail.revisits stored = false)
    (hstands : Stands doc.get? stored value) (hpart : part ∈ value.parts) :
    (trail.push stored).HasRoom doc levels part := by
  have hdistinct := h.distinct.push hrevisits hstands
  have hlevels := h.lt_levels
  have hless := Object.nesting_lt_of_mem_parts hpart
  refine ⟨hdistinct, ?_⟩
  cases stored with
  | reference id =>
    have hlength := hdistinct.length_le
    change trail.within.length + 1 ≤ doc.objects.size at hlength
    change (doc.objects.size - (trail.within.length + 1)) * doc.nesting + part.nesting < levels
    -- the object that is entered gives up its share of the levels to what is nested in it
    have hvalue := hstands.nesting_le
    obtain ⟨rest, hrest⟩ : ∃ n, doc.objects.size - trail.within.length = n + 1 :=
      ⟨doc.objects.size - trail.within.length - 1, by omega⟩
    rw [show doc.objects.size - (trail.within.length + 1) = rest by omega]
    rw [hrest, Nat.succ_mul] at hlevels
    omega
  | _ =>
    rw [hstands.eq_of_direct rfl] at hless
    change (doc.objects.size - trail.within.length) * doc.nesting + part.nesting < levels
    omega

def nestingInvariant (doc : Document) : (nestingTerms doc).Invariant where
  holds := fun levels trail stored => trail.HasRoom doc levels stored
  stop := fun site _ h hwhy => h.stop_ne_depth hwhy site
  push := fun h => h.push

theorem Document.lt_nestingBound (doc : Document) (object : Object) :
    doc.objects.size * doc.nesting + object.nesting < doc.nestingBound object := by
  have hstored : doc.objects.size * doc.nesting ≤
      doc.objects.size * max object.nesting doc.nesting :=
    Nat.mul_le_mul_left _ (Nat.le_max_right _ _)
  have hobject : object.nesting ≤ max object.nesting doc.nesting := Nat.le_max_left _ _
  rw [nestingBound, Nat.succ_mul, Nat.mul_succ]
  omega

theorem Question.orderly_nesting {p : Profile} {maxDepth : Nat} {object : Object}
    (hbound : doc.nestingBound object ≤ maxDepth) (question : Question) :
    Orderly (nestingTerms doc) (fun _ => True) (question.inquiry p maxDepth object) := by
  have hstart : Trail.start.DistinctIn doc := ⟨List.nodup_nil, fun id hid => by cases hid⟩
  have hlevels : doc.objects.size * doc.nesting + object.nesting < maxDepth :=
    Nat.lt_of_lt_of_le (doc.lt_nestingBound object) hbound
  exact question.orderly (nestingTerms_admits p) (nestingInvariant doc) trivial ⟨hstart, hlevels⟩

/-- From the bound on, the limit on the depth makes no difference, as it is never reached. -/
theorem outcome_nestingBound_add (question : Question) (doc : Document) (p : Profile)
    (patience? : Option Nat) (object : Object) (extra : Nat) :
    question.outcome doc p (doc.nestingBound object + extra) patience? object =
        question.outcome doc p (doc.nestingBound object) patience? object ∧
      ∀ site id? depth, question.outcome doc p (doc.nestingBound object + extra) patience? object ≠
        .error (.endless site id? depth .depth) := by
  have never (maxDepth : Nat) (hbound : doc.nestingBound object ≤ maxDepth) (site : Site)
      (id? : Option ObjectId) (depth : Nat) : question.outcome doc p maxDepth patience? object ≠
        .error (.endless site id? depth .depth) := by
    intro h
    rcases (question.orderly_nesting hbound).fault_of_verdict h with hcancelled | hfault
    · cases hcancelled
    · exact hfault site id? depth rfl
  refine ⟨?_, never _ (Nat.le_add_right _ _)⟩
  have he : Enter.AgreeUpTo (fun fault => ∃ site id? depth, fault = .endless site id? depth .depth)
      (deeper p (doc.nestingBound object) .start)
      (deeper p (doc.nestingBound object + extra) .start) :=
    .of_levels_le p (Nat.le_add_right _ _) (fun site id? depth => ⟨site, id?, depth, rfl⟩) .start
  rcases (question.agree_of_enter he object).verdict_eq doc.get? patience? with heq | hexcused
  · exact heq
  · obtain ⟨_, hverdict, site, id?, depth, rfl⟩ := hexcused
    exact absurd hverdict (never _ (Nat.le_refl _) site id? depth)

end PdfConformance

import PdfConformance.Proofs.Question

/-! # Cancellation is exact

A caller who loses patience after some look-ups is told so at the next chance to cancel, when
exactly those look-ups have been made; where no chance is left, the verdict is that of a caller who
never cancels. There is a chance before each look-up, and a last one where a chain of references is
given up. -/

namespace PdfConformance

namespace Inquiry

variable {α : Type} {t : Terms} {result : α → Prop}

/-- The ids asked for in a run that ends when the patience does, in order. -/
def askedWithin (find : ObjectId → Option Object) : Nat → Inquiry α → List ObjectId
  | _, done _ => []
  | _, fail _ => []
  | 0, pause _ => []
  | patience + 1, pause next => next.askedWithin find (patience + 1)
  | patience, ask id next => id :: (next (find id)).askedWithin find (patience - 1)

/-- The verdict is the fault of a chain of references that was given up. -/
def endsAtHops : Except Fault α → Bool
  | .error fault => fault.atHops
  | .ok _ => false

/-- How often a run that nobody cancels could have been. -/
def chances (find : ObjectId → Option Object) (x : Inquiry α) : Nat :=
  (x.asked find).length + if endsAtHops (x.run find) then 1 else 0

theorem chances_le (find : ObjectId → Option Object) (x : Inquiry α) :
    x.chances find ≤ (x.asked find).length + 1 := by
  unfold chances
  split
  · exact Nat.le_refl _
  · exact Nat.le_succ _

theorem chances_pause_ask {id : ObjectId} {next : Option Object → Inquiry α}
    (find : ObjectId → Option Object) :
    (pause (ask id next)).chances find = (next (find id)).chances find + 1 :=
  Nat.succ_add _ _

/-- A verdict of acceptance is none of a caller who cancelled. -/
theorem run_of_verdict {find : ObjectId → Option Object} {x : Inquiry α} {patience? : Option Nat}
    {a : α} (h : x.verdict find patience? = .ok a) : x.run find = .ok a := by
  cases patience? with
  | none => exact h
  | some patience =>
    change x.runWithin find patience = .ok a at h
    induction x generalizing patience with
    | done _ => cases patience <;> exact h
    | fail _ => cases patience <;> cases h
    | pause next ih =>
      cases patience with
      | zero => cases h
      | succ patience => exact ih (patience + 1) h
    | ask id next ih => cases patience <;> exact ih (find id) _ h

theorem Orderly.runWithin_of_lt {x : Inquiry α} {patience : Nat} (h : Orderly t result x)
    (hlt : patience < x.chances t.find) :
    x.runWithin t.find patience = .error .cancelled ∧
      x.askedWithin t.find patience = (x.asked t.find).take patience := by
  induction h generalizing patience with
  | done _ => cases hlt
  | fail _ hhops => simp [chances, asked, run, endsAtHops, hhops] at hlt
  | @ask id next _ _ ih =>
    cases patience with
    | zero => exact ⟨rfl, rfl⟩
    | succ patience =>
      rw [chances_pause_ask] at hlt
      obtain ⟨hrun, hasked⟩ := ih (Nat.lt_of_succ_lt_succ hlt)
      exact ⟨hrun, congrArg (id :: ·) hasked⟩
  | giveUp _ hhops =>
    have hzero : patience = 0 := by simpa [chances, asked, run, endsAtHops, hhops] using hlt
    subst hzero
    exact ⟨rfl, rfl⟩

theorem Orderly.runWithin_of_le {x : Inquiry α} {patience : Nat} (h : Orderly t result x)
    (hle : x.chances t.find ≤ patience) : x.runWithin t.find patience = x.run t.find := by
  induction h generalizing patience with
  | done _ => cases patience <;> rfl
  | fail _ _ => cases patience <;> rfl
  | ask _ _ ih =>
    rw [chances_pause_ask] at hle
    obtain ⟨rest, rfl⟩ : ∃ n, patience = n + 1 := ⟨patience - 1, by omega⟩
    exact ih (Nat.le_of_succ_le_succ hle)
  | giveUp _ hhops =>
    obtain ⟨rest, rfl⟩ : ∃ n, patience = n + 1 :=
      ⟨patience - 1, by simp [chances, asked, run, endsAtHops, hhops] at hle; omega⟩
    rfl

end Inquiry

open Inquiry

/-- Inquiries that make their look-ups in step are cancelled together. -/
theorem Likeness.Mirrors.verdicts_within {l : Likeness} (hl : l.Coherent) (hpaced : l.paced)
    (hhops : ∀ fault fault', l.fault fault fault' → fault'.atHops = fault.atHops)
    {x y : Inquiry Unit} (h : l.Mirrors Eq x y) (hx : Orderly (openTerms l.find) (fun _ => True) x)
    (hy : Orderly (openTerms l.find') (fun _ => True) y) (patience? : Option Nat) :
    l.Verdicts Eq (x.verdict l.find patience?) (y.verdict l.find' patience?) := by
  obtain ⟨hverdicts, hpace⟩ := h
  have hchances : y.chances l.find' = x.chances l.find := by
    have hends : endsAtHops (y.run l.find') = endsAtHops (x.run l.find) := by
      generalize x.run l.find = verdict at hverdicts ⊢
      generalize y.run l.find' = verdict' at hverdicts ⊢
      cases hverdicts with
      | ok _ => rfl
      | error hfault => exact hhops _ _ hfault
      | excused hexcused => exact absurd hexcused (l.unexcused hpaced _)
    rw [chances, chances, hpace hpaced, hends]
  cases patience? with
  | none => exact hverdicts
  | some patience =>
    change l.Verdicts Eq (x.runWithin l.find patience) (y.runWithin l.find' patience)
    by_cases hlt : patience < x.chances l.find
    · have hcut : x.runWithin l.find patience = .error .cancelled := (hx.runWithin_of_lt hlt).1
      have hcut' : y.runWithin l.find' patience = .error .cancelled :=
        (hy.runWithin_of_lt (hchances ▸ hlt)).1
      rw [hcut, hcut']
      exact .error (hl.fault_refl .cancelled rfl)
    · have hle := Nat.le_of_not_lt hlt
      have hwhole : x.runWithin l.find patience = x.run l.find := hx.runWithin_of_le hle
      have hwhole' : y.runWithin l.find' patience = y.run l.find' :=
        hy.runWithin_of_le (hchances ▸ hle)
      rw [hwhole, hwhole']
      exact hverdicts

/-- A caller whose patience ends after some look-ups is told that the walk was cancelled exactly if
there is a chance to cancel left, and then just those look-ups have been made. -/
theorem outcome_within (question : Question) (doc : Document) (p : Profile) (maxDepth : Nat)
    (object : Object) (patience : Nat) :
    let x := question.inquiry p maxDepth object
    (patience < x.chances doc.get? →
      question.outcome doc p maxDepth (some patience) object = .error .cancelled ∧
      x.askedWithin doc.get? patience = (x.asked doc.get?).take patience ∧
      (x.askedWithin doc.get? patience).length = patience) ∧
    (x.chances doc.get? ≤ patience →
      question.outcome doc p maxDepth (some patience) object =
        question.outcome doc p maxDepth none object) := by
  intro x
  have horderly : Orderly (openTerms doc.get?) (fun _ => True) x :=
    question.orderly (fun _ _ => trivial) (openInvariant doc.get?) trivial trivial
  refine ⟨fun hlt => ?_, horderly.runWithin_of_le⟩
  obtain ⟨hrun, hasked⟩ := horderly.runWithin_of_lt hlt
  refine ⟨hrun, hasked, ?_⟩
  -- only the last chance may come without a look-up, and the patience ends by it
  have hlength : patience ≤ (x.asked doc.get?).length := by
    have hle := x.chances_le doc.get?
    omega
  change (x.askedWithin (openTerms doc.get?).find patience).length = patience
  rw [hasked, List.length_take]
  exact Nat.min_eq_left hlength

end PdfConformance

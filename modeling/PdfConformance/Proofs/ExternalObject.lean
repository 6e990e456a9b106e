import PdfConformance.Proofs.Cancellation

/-! # What is accepted for an external object

An external object that is accepted is a stream, and no more than 32 references lead to it. There is
one exception: a null that is given as it is, and not by reference, is accepted as well. -/

namespace PdfConformance

open Inquiry

variable {doc : Document} {p : Profile} {hint : Hint} {maxDepth : Nat} {patience? : Option Nat}
  {object : Object}

/-- What is judged has been found, or there was a null in its place. -/
theorem passes_of_outcome
    (h : (Question.external hint).outcome doc p maxDepth patience? object = .ok ()) :
    object = .null ∨
      ∃ ids header, ids.length ≤ maxHops ∧ Passes doc.get? ids object (.stream header) := by
  obtain ⟨value?, hvalue, hrest⟩ := exists_of_run_bind (run_of_verdict h)
  cases value? with
  | none => exact .inl (eq_null_of_run_valueIfAny hvalue)
  | some value =>
    obtain ⟨ids, hhops, hpasses⟩ := passes_of_run_valueIfAny hvalue
    cases value with
    | stream header => exact .inr ⟨ids, header, hhops, hpasses⟩
    | _ => cases hrest

/-- Nothing else than a stream is accepted, however it is given, unless it is null itself. -/
theorem rejected_of_not_passes (hnull : object ≠ .null)
    (hnot : ∀ ids header, ids.length ≤ maxHops → ¬ Passes doc.get? ids object (.stream header)) :
    ∃ fault, (Question.external hint).outcome doc p maxDepth patience? object = .error fault := by
  cases houtcome : (Question.external hint).outcome doc p maxDepth patience? object with
  | error fault => exact ⟨fault, rfl⟩
  | ok _ =>
    rcases passes_of_outcome houtcome with heq | ⟨ids, header, hhops, hpasses⟩
    · exact absurd heq hnull
    · exact absurd hpasses (hnot ids header hhops)

/-- Acceptance means that the object is null as it is given, or that following at most 32 references
from it ends at a stream. References that lead to a missing or null object are refused, and so are
values of any other kind. -/
theorem outcome_external_object (doc : Document) (p : Profile) (hint : Hint) (maxDepth : Nat)
    (patience? : Option Nat) (object : Object) :
    ((Question.external hint).outcome doc p maxDepth patience? object = .ok () →
      object = .null ∨
        ∃ ids header, ids.length ≤ 32 ∧ Passes doc.get? ids object (.stream header)) ∧
    (object = .null → (Question.external hint).outcome doc p maxDepth patience? object = .ok ()) ∧
    (∀ id, Astray doc.get? object id →
      ∃ fault, (Question.external hint).outcome doc p maxDepth patience? object = .error fault) ∧
    (∀ value, Stands doc.get? object value → value ≠ .null → value.kind ≠ .stream →
      ∃ fault, (Question.external hint).outcome doc p maxDepth patience? object = .error fault) := by
  refine ⟨passes_of_outcome, ?_, ?_, ?_⟩
  · rintro rfl
    cases patience? with
    | none => rfl
    | some patience => cases patience <;> rfl
  · intro id hastray
    refine rejected_of_not_passes (fun heq => ?_) fun ids header _ hpasses => ?_
    · rw [heq] at hastray
      cases hastray
    · exact hpasses.stands.not_astray hastray
  · intro value hstands hnull hkind
    refine rejected_of_not_passes (fun heq => ?_) fun ids header _ hpasses => ?_
    · rw [heq] at hstands
      exact hnull (hstands.eq_of_direct rfl)
    · rw [← hstands.unique hpasses.stands] at hkind
      exact hkind rfl

/-- A form behind two references, and a reference to an object that is not stored. -/
def aliasedForm : Document where
  header := "1.7"
  trailer := []
  objects := .ofList [
    (⟨1, 0⟩, .reference ⟨2, 0⟩),
    (⟨2, 0⟩, .stream [
      (Text.Utf8.encode "Subtype", .name (Text.Utf8.encode "Form")),
      (Text.Utf8.encode "BBox", .array [.integer 0, .integer 0, .integer 1, .integer 1])]),
    (⟨3, 0⟩, .reference ⟨9, 0⟩)]

theorem outcome_external_object_aliasedForm :
    (Question.external .form).outcome aliasedForm ⟨.v1_7, .strict⟩ 64 none (.reference ⟨1, 0⟩) =
        .ok () ∧
      (∃ ids header, ids.length ≤ 32 ∧
        Passes aliasedForm.get? ids (.reference ⟨1, 0⟩) (.stream header)) ∧
      ∃ fault, (Question.external .form).outcome aliasedForm ⟨.v1_7, .strict⟩ 64 none
        (.reference ⟨3, 0⟩) = .error fault := by
  have hok : (Question.external .form).outcome aliasedForm ⟨.v1_7, .strict⟩ 64 none
      (.reference ⟨1, 0⟩) = .ok () := by rfl
  obtain ⟨haccepted, -⟩ := outcome_external_object aliasedForm ⟨.v1_7, .strict⟩ .form 64 none
    (.reference ⟨1, 0⟩)
  obtain ⟨-, -, hastray, -⟩ := outcome_external_object aliasedForm ⟨.v1_7, .strict⟩ .form 64 none
    (.reference ⟨3, 0⟩)
  have hnothing : Astray aliasedForm.get? (.reference ⟨3, 0⟩) ⟨9, 0⟩ :=
    .through rfl (.here (.inl rfl))
  rcases haccepted hok with heq | hpasses
  · cases heq
  · exact ⟨hok, hpasses, hastray _ hnothing⟩

/-- A null is accepted though no stream is to be had from it. -/
theorem outcome_external_null :
    ¬ ∀ (doc : Document) (p : Profile) (hint : Hint) (maxDepth : Nat) (object : Object),
      (Question.external hint).outcome doc p maxDepth none object = .ok () →
      ∃ ids header, ids.length ≤ 32 ∧ Passes doc.get? ids object (.stream header) := by
  intro h
  obtain ⟨ids, header, -, hpasses⟩ := h aliasedForm ⟨.v1_7, .strict⟩ .any 64 .null rfl
  cases hpasses

end PdfConformance

import PdfConformance.Proofs.Circles

/-! # A verdict depends only on what the object reaches

`outcome_congr`: two documents that store the same under every id the object reaches lead to the same
verdict, whatever else they store. Only such ids are asked for, so that no other object can be told
apart from one that is not there. -/

namespace PdfConformance

namespace Inquiry

variable {α : Type} {find find' : ObjectId → Option Object}

/-- An orderly inquiry asks for nothing but what is in view. -/
theorem Orderly.held_of_mem_asked {t : Terms} {result : α → Prop} {x : Inquiry α} {id : ObjectId}
    (h : Orderly t result x) (hid : id ∈ x.asked t.find) : t.held (.reference id) := by
  induction h with
  | done _ => cases hid
  | fail _ _ => cases hid
  | ask hheld _ ih =>
    rcases List.mem_cons.mp hid with rfl | hrest
    · exact hheld
    · exact ih hrest
  | giveUp _ _ => cases hid

theorem runWithin_congr {x : Inquiry α} (h : ∀ id ∈ x.asked find, find id = find' id)
    (patience : Nat) : x.runWithin find patience = x.runWithin find' patience := by
  induction x generalizing patience with
  | done _ => cases patience <;> rfl
  | fail _ => cases patience <;> rfl
  | pause next ih =>
    cases patience with
    | zero => rfl
    | succ patience => exact ih h (patience + 1)
  | ask id next ih =>
    have hid : find id = find' id := h id List.mem_cons_self
    have hrest := ih (find id) (fun other hother => h other (List.mem_cons_of_mem _ hother))
      (patience - 1)
    cases patience with
    | zero => rw [runWithin, runWithin, ← hid, hrest]
    | succ patience => rw [runWithin, runWithin, ← hid, hrest]

theorem verdict_congr {x : Inquiry α} (h : ∀ id ∈ x.asked find, find id = find' id)
    (patience? : Option Nat) : x.verdict find patience? = x.verdict find' patience? := by
  cases patience? with
  | none => exact run_congr h
  | some patience => exact runWithin_congr h patience

end Inquiry

open Inquiry

theorem reaches_of_mem_asked {question : Question} {find : ObjectId → Option Object} {p : Profile}
    {maxDepth : Nat} {object : Object} {id : ObjectId}
    (hid : id ∈ (question.inquiry p maxDepth object).asked find) : Reaches find object id := by
  have horderly := question.orderly_circle find p maxDepth object
  have hheld : ∀ other ∈ (Object.reference id).ids, Reaches find object other :=
    horderly.held_of_mem_asked hid
  exact hheld id (List.mem_singleton.mpr rfl)

theorem outcome_eq_of_reached {question : Question} {doc doc' : Document} {p : Profile}
    {maxDepth : Nat} {patience? : Option Nat} {object : Object}
    (h : ∀ id, Reaches doc.get? object id → doc'.get? id = doc.get? id) :
    question.outcome doc' p maxDepth patience? object =
      question.outcome doc p maxDepth patience? object := by
  have hasked : ∀ id ∈ (question.inquiry p maxDepth object).asked doc.get?,
      doc.get? id = doc'.get? id := by
    intro id hid
    exact (h id (reaches_of_mem_asked hid)).symm
  exact (verdict_congr hasked patience?).symm

/-- Every id that is asked for is reached. Documents that agree on what is reached lead to the same
verdict: an object that is not reached may be stored, replaced or removed. -/
theorem outcome_congr (question : Question) (doc : Document) (p : Profile) (maxDepth : Nat)
    (patience? : Option Nat) (object : Object) :
    (∀ id ∈ (question.inquiry p maxDepth object).asked doc.get?, Reaches doc.get? object id) ∧
    (∀ doc' : Document, (∀ id, Reaches doc.get? object id → doc'.get? id = doc.get? id) →
      question.outcome doc' p maxDepth patience? object =
        question.outcome doc p maxDepth patience? object) ∧
    (∀ id, ¬ Reaches doc.get? object id →
      (∀ stored, question.outcome { doc with objects := doc.objects.insert id stored } p maxDepth
          patience? object = question.outcome doc p maxDepth patience? object) ∧
      question.outcome { doc with objects := doc.objects.erase id } p maxDepth patience? object =
        question.outcome doc p maxDepth patience? object) := by
  refine ⟨fun id hid => reaches_of_mem_asked hid, fun doc' h => outcome_eq_of_reached h, ?_⟩
  intro id hnot
  have hne {other : ObjectId} (hother : Reaches doc.get? object other) : other ≠ id := by
    rintro rfl
    exact hnot hother
  refine ⟨fun stored => outcome_eq_of_reached fun other hother => ?_,
    outcome_eq_of_reached fun other hother => ?_⟩
  · exact (doc.objects.get?_insert id other stored).trans (if_neg (hne hother))
  · exact (doc.objects.get?_erase id other).trans (if_neg (hne hother))

/-- An image with its colour space under an id of its own, and an object of which it knows
nothing. -/
def accompanied : Document where
  header := "1.7"
  trailer := []
  objects := .ofList [
    (⟨1, 0⟩, .stream [
      (Text.Utf8.encode "Subtype", .name (Text.Utf8.encode "Image")),
      (Text.Utf8.encode "Width", .integer 1),
      (Text.Utf8.encode "Height", .integer 1),
      (Text.Utf8.encode "ColorSpace", .reference ⟨2, 0⟩),
      (Text.Utf8.encode "BitsPerComponent", .integer 8)]),
    (⟨2, 0⟩, .name (Text.Utf8.encode "DeviceGray")),
    (⟨3, 0⟩, .reference ⟨1, 0⟩)]

theorem eq_of_reaches_accompanied {id : ObjectId}
    (h : Reaches accompanied.get? (.reference ⟨1, 0⟩) id) : id = ⟨1, 0⟩ ∨ id = ⟨2, 0⟩ := by
  induction h with
  | occurs hid => exact .inl (List.mem_singleton.mp hid)
  | through _ hstored hid ih =>
    rcases ih with rfl | rfl
    · cases hstored
      exact .inr (List.mem_singleton.mp hid)
    · cases hstored
      cases hid

theorem outcome_congr_accompanied :
    ¬ Reaches accompanied.get? (.reference ⟨1, 0⟩) ⟨3, 0⟩ ∧
      (Question.external .image).outcome
        { accompanied with objects := accompanied.objects.insert ⟨3, 0⟩ .null } ⟨.v1_7, .strict⟩ 1
        none (.reference ⟨1, 0⟩) = .ok () ∧
      (Question.external .image).outcome
        { accompanied with objects := accompanied.objects.erase ⟨3, 0⟩ } ⟨.v1_7, .strict⟩ 1
        (some 2) (.reference ⟨1, 0⟩) = .ok () := by
  have hnot : ¬ Reaches accompanied.get? (.reference ⟨1, 0⟩) ⟨3, 0⟩ := by
    intro h
    rcases eq_of_reaches_accompanied h with heq | heq
    · cases heq
    · cases heq
  have hok : (Question.external .image).outcome accompanied ⟨.v1_7, .strict⟩ 1 none
      (.reference ⟨1, 0⟩) = .ok () := by rfl
  have hpatient : (Question.external .image).outcome accompanied ⟨.v1_7, .strict⟩ 1 (some 2)
      (.reference ⟨1, 0⟩) = .ok () := by rfl
  have hlocal := outcome_congr (.external .image) accompanied ⟨.v1_7, .strict⟩ 1
  have herased : ∀ id, Reaches accompanied.get? (.reference ⟨1, 0⟩) id →
      { accompanied with objects := accompanied.objects.erase ⟨3, 0⟩ : Document }.get? id =
        accompanied.get? id := by
    intro id hid
    rcases eq_of_reaches_accompanied hid with rfl | rfl
    · rfl
    · rfl
  refine ⟨hnot, ?_, ?_⟩
  · exact (((hlocal none (.reference ⟨1, 0⟩)).2.2 ⟨3, 0⟩ hnot).1 .null).trans hok
  · exact ((hlocal (some 2) (.reference ⟨1, 0⟩)).2.1 _ herased).trans hpatient

end PdfConformance

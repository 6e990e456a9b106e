import PdfConformance.Proofs.Judgement.Variation
import PdfConformance.Proofs.Rule.Meaning

/-! # Resources do not influence each other

`outcome_siblings`: the external objects that resources name are judged as if each were the only one.
Every one of them is entered from the same place, whatever has been judged before it: a walk comes
back to where it has set out from, so that objects shared between siblings are no circle. -/

namespace PdfConformance

open Inquiry

variable {find : ObjectId → Option Object} {p : Profile} {entries members : Dict}

/-- The first of the verdicts that is a refusal, if there is one. -/
def firstRefusal : List (Except Fault Unit) → Except Fault Unit
  | [] => .ok ()
  | .ok _ :: later => firstRefusal later
  | .error fault :: _ => .error fault

theorem firstRefusal_eq_ok_iff {verdicts : List (Except Fault Unit)} :
    firstRefusal verdicts = .ok () ↔ ∀ verdict ∈ verdicts, verdict = .ok () := by
  induction verdicts with
  | nil => simp [firstRefusal]
  | cons verdict later ih =>
    cases verdict with
    | ok _ => simp [firstRefusal, ih]
    | error fault => simp [firstRefusal]

namespace Inquiry

variable {α : Type} {f : α → Inquiry Unit}

theorem run_forM_singleton (item : α) : ([item].forM f).run find = (f item).run find := by
  change (f item >>= fun _ => .done ()).run find = _
  rw [run_bind]
  cases (f item).run find <;> rfl

/-- The verdict of a loop is the first refusal of its rounds. -/
theorem run_forM_eq_firstRefusal (items : List α) :
    (items.forM f).run find = firstRefusal (items.map fun item => (f item).run find) := by
  induction items with
  | nil => rfl
  | cons item items ih =>
    change (f item >>= fun _ => items.forM f).run find = _
    rw [run_bind, List.map_cons]
    cases (f item).run find with
    | ok _ => exact ih
    | error _ => rfl

/-- What goes before a loop may as well go before each of its rounds. -/
theorem run_then_forM (first : Inquiry Unit) {items : List α} (hsome : items ≠ []) :
    (first >>= fun _ => items.forM f).run find =
      firstRefusal (items.map fun item => (first >>= fun _ => [item].forM f).run find) := by
  simp only [run_bind, run_forM_singleton, run_forM_eq_firstRefusal items]
  cases first.run find with
  | ok _ => rfl
  | error fault =>
    obtain ⟨item, later, rfl⟩ := List.exists_cons_of_ne_nil hsome
    rfl

end Inquiry

namespace Grammar

/-- The external objects come last, and no other category is kept under their key. -/
theorem exists_resources_clauses_eq : ∃ before,
    resources.clauses = before ++ [.enter (Rule.optional "XObject" .dictionary) .externals] ∧
      ∀ rule ∈ before.flatMap Clause.rules, Text.Utf8.encode rule.key ≠ Text.Utf8.encode "XObject" :=
  ⟨resources.clauses.take 7, rfl, by decide⟩

end Grammar

/-- The external objects are judged one level deeper than the resources, each on its own. -/
def judgeMembers (p : Profile) : (levels : Nat) → Dict → Inquiry Unit
  | 0, _ => .fail (.endless ⟨"resourceDict", "XObject"⟩ none 1 .depth)
  | levels + 1, members => members.forM (judgeMember (deeper p levels ⟨[], 2⟩))

/-- A dictionary of external objects that stands in its place is entered. -/
theorem run_check_externals {levels : Nat}
    (hget : Dict.get? entries (Text.Utf8.encode "XObject") = some (.dictionary members)) :
    ((Clause.enter (Rule.optional "XObject" .dictionary) .externals).check p
      (deeper p levels ⟨[], 1⟩) Grammar.resources.container entries).run find =
        (judgeMembers p levels members).run find := by
  have hcheck : ((Rule.optional "XObject" .dictionary).check p Grammar.resources.container
      entries).run find = .ok (some ⟨.dictionary members, .dictionary members⟩) := by
    refine Rule.run_check_of_direct (Container.permits_v1_0 p) hget rfl (by simp) ?_
    exact .of_unlimited rfl (List.mem_singleton.mpr rfl)
  refine (run_bind_of_run hcheck _).trans ?_
  cases levels <;> rfl

/-- Whatever external objects the resources name, they are judged one after the other in the same
way, after all else. -/
theorem exists_outcome_eq_forM (doc : Document) (p : Profile) (maxDepth : Nat) (entries : Dict) :
    ∃ (first : Inquiry Unit) (round : Bytes × Object → Inquiry Unit), ∀ members,
      Question.resources.outcome doc p maxDepth none
          (.dictionary (Dict.set entries (Text.Utf8.encode "XObject") (.dictionary members))) =
        (first >>= fun _ => members.forM round).run doc.get? := by
  cases maxDepth with
  | zero =>
    exact ⟨.fail (.endless ⟨"caller", "Resources"⟩ none 0 .depth), fun _ => .done (), fun _ => rfl⟩
  | succ levels =>
    obtain ⟨before, hclauses, hbeside⟩ := Grammar.exists_resources_clauses_eq
    let others : Inquiry Unit :=
      before.forM (Clause.check p (deeper p levels ⟨[], 1⟩) Grammar.resources.container entries)
    have hothers (members : Dict) : before.forM (Clause.check p (deeper p levels ⟨[], 1⟩)
        Grammar.resources.container
        (Dict.set entries (Text.Utf8.encode "XObject") (.dictionary members))) = others := by
      have hset := Dict.sameBeside_set entries (Text.Utf8.encode "XObject") (.dictionary members)
      apply Clause.forM_check_congr
      intro rule hrule
      exact hset.check_eq (hset.sameFilters (by decide)) (hbeside rule hrule)
    have houtcome (members : Dict) :
        Question.resources.outcome doc p (levels + 1) none
            (.dictionary (Dict.set entries (Text.Utf8.encode "XObject") (.dictionary members))) =
          (others >>= fun _ => judgeMembers p levels members).run doc.get? := by
      change (Grammar.resources.check p (deeper p levels ⟨[], 1⟩) _).run doc.get? = _
      unfold Sheet.check
      rw [hclauses, forM_append_eq, hothers]
      apply run_bind_congr
      intro _ _
      rw [run_forM_singleton]
      exact run_check_externals (Dict.get?_set_self entries _ _)
    cases levels with
    | zero =>
      refine ⟨others >>= fun _ => judgeMembers p 0 [], fun _ => .done (), fun members => ?_⟩
      rw [houtcome, bind_assoc]
      rfl
    | succ levels => exact ⟨others, judgeMember (deeper p levels ⟨[], 2⟩), houtcome⟩

/-- The verdict on resources is the first refusal among the verdicts on the same resources with one of
their external objects at a time. They are accepted if all of these are. -/
theorem outcome_siblings (doc : Document) (p : Profile) (maxDepth : Nat) {entries members : Dict}
    (hget : Dict.get? entries (Text.Utf8.encode "XObject") = some (.dictionary members))
    (hsome : members ≠ []) :
    Question.resources.outcome doc p maxDepth none (.dictionary entries) =
        firstRefusal (members.map fun member =>
          Question.resources.outcome doc p maxDepth none
            (.dictionary (Dict.set entries (Text.Utf8.encode "XObject") (.dictionary [member])))) ∧
      (Question.resources.outcome doc p maxDepth none (.dictionary entries) = .ok () ↔
        ∀ member ∈ members, Question.resources.outcome doc p maxDepth none
          (.dictionary (Dict.set entries (Text.Utf8.encode "XObject") (.dictionary [member]))) =
            .ok ()) := by
  obtain ⟨first, round, houtcome⟩ := exists_outcome_eq_forM doc p maxDepth entries
  have hall := houtcome members
  rw [Dict.set_of_get? hget] at hall
  have hfirst : Question.resources.outcome doc p maxDepth none (.dictionary entries) =
      firstRefusal (members.map fun member =>
        Question.resources.outcome doc p maxDepth none
          (.dictionary (Dict.set entries (Text.Utf8.encode "XObject") (.dictionary [member])))) := by
    simp only [hall, houtcome]
    exact run_then_forM first hsome
  refine ⟨hfirst, ?_⟩
  rw [hfirst, firstRefusal_eq_ok_iff, List.forall_mem_map]

/-- A form that draws an image, the image by itself, nothing, the form once more, and a form without
a bounding box. -/
def exhibition : Document where
  header := "1.7"
  trailer := []
  objects := .ofList [(⟨1, 0⟩, form), (⟨2, 0⟩, image), (⟨3, 0⟩, boundless)]
where
  image : Object := .stream [
    (Text.Utf8.encode "Subtype", .name (Text.Utf8.encode "Image")),
    (Text.Utf8.encode "Width", .integer 1),
    (Text.Utf8.encode "Height", .integer 1),
    (Text.Utf8.encode "ImageMask", .boolean true)]
  boundless : Object := .stream [
    (Text.Utf8.encode "Subtype", .name (Text.Utf8.encode "Form"))]
  form : Object := .stream [
    (Text.Utf8.encode "Subtype", .name (Text.Utf8.encode "Form")),
    (Text.Utf8.encode "BBox", .array [.integer 0, .integer 0, .integer 1, .integer 1]),
    (Text.Utf8.encode "Resources", naming [(Text.Utf8.encode "Im0", .reference ⟨2, 0⟩)])]
  naming (members : Dict) : Object :=
    .dictionary [(Text.Utf8.encode "XObject", .dictionary members)]
  shared : Dict := [
    (Text.Utf8.encode "Fm0", .reference ⟨1, 0⟩),
    (Text.Utf8.encode "Im0", .reference ⟨2, 0⟩),
    (Text.Utf8.encode "Im1", .null),
    (Text.Utf8.encode "Fm1", .reference ⟨1, 0⟩)]
  faulty : Bytes × Object := (Text.Utf8.encode "Fm2", .reference ⟨3, 0⟩)

/-- The form and the image are accepted as often as they are named, and what is wrong with the last
form is what is wrong with the resources. -/
theorem outcome_siblings_exhibition :
    Question.resources.outcome exhibition ⟨.v1_7, .strict⟩ 8 none
        (exhibition.naming exhibition.shared) = .ok () ∧
      Question.resources.outcome exhibition ⟨.v1_7, .strict⟩ 8 none
        (exhibition.naming (exhibition.shared ++ [exhibition.faulty])) =
          .error (.missingEntry ⟨"formStream", "BBox"⟩) := by
  have hshared := outcome_siblings exhibition ⟨.v1_7, .strict⟩ 8
    (show Dict.get? [(Text.Utf8.encode "XObject", .dictionary exhibition.shared)]
      (Text.Utf8.encode "XObject") = _ from rfl) (by simp [exhibition.shared])
  have hfaulty := outcome_siblings exhibition ⟨.v1_7, .strict⟩ 8
    (show Dict.get? [(Text.Utf8.encode "XObject",
      .dictionary (exhibition.shared ++ [exhibition.faulty]))] (Text.Utf8.encode "XObject") = _
        from rfl) (by simp)
  refine ⟨hshared.2.mpr ?_, hfaulty.1.trans rfl⟩
  simp only [exhibition.shared, List.forall_mem_cons]
  exact ⟨rfl, rfl, rfl, rfl, fun _ hmem => nomatch hmem⟩

end PdfConformance

import PdfConformance.Document.Pages
import PdfConformance.Proofs.Document.Ancestry
import PdfConformance.Proofs.Question

/-! # The resources of pages

`inspectPageResources_iff`: the resources of pages are accepted page by page, whichever are listed. A
page has its own resources or inherits those of the nearest node above it that has some; where it has
any, they are judged as a resource dictionary that a caller gives. The first page that is refused in
the order of the list decides. -/

namespace PdfConformance

/-! ## Loops that end at the first error -/

section Loops

variable {α ε : Type} {items : List α} {f : α → Except ε Unit}

theorem forM_cons_of_ok {first : α} (h : f first = .ok ()) :
    (first :: items).forM f = items.forM f := by
  change (f first >>= fun _ => items.forM f) = _
  rw [h]
  rfl

theorem forM_cons_of_error {first : α} {error : ε} (h : f first = .error error) :
    (first :: items).forM f = .error error := by
  change (f first >>= fun _ => items.forM f) = _
  rw [h]
  rfl

theorem forM_eq_ok_iff : items.forM f = .ok () ↔ ∀ item ∈ items, f item = .ok () := by
  induction items with
  | nil => exact ⟨fun _ _ h => absurd h List.not_mem_nil, fun _ => rfl⟩
  | cons first items ih =>
    rw [List.forall_mem_cons]
    cases hfirst : f first with
    | ok _ => rw [forM_cons_of_ok hfirst, ih]; simp
    | error error => rw [forM_cons_of_error hfirst]; simp

/-- The error is that of the first item that has one. -/
theorem forM_eq_error_iff {error : ε} : items.forM f = .error error ↔
    ∃ before item after, items = before ++ item :: after ∧ (∀ earlier ∈ before, f earlier = .ok ()) ∧
      f item = .error error := by
  constructor
  · intro h
    induction items with
    | nil => cases h
    | cons first items ih =>
      cases hfirst : f first with
      | error error' =>
        rw [forM_cons_of_error hfirst] at h
        exact ⟨[], first, items, rfl, fun _ hmem => absurd hmem List.not_mem_nil, hfirst.trans h⟩
      | ok _ =>
        rw [forM_cons_of_ok hfirst] at h
        obtain ⟨before, item, after, rfl, hbefore, hitem⟩ := ih h
        exact ⟨first :: before, item, after, rfl, List.forall_mem_cons.mpr ⟨hfirst, hbefore⟩, hitem⟩
  · rintro ⟨before, item, after, rfl, hbefore, hitem⟩
    induction before with
    | nil => exact forM_cons_of_error hitem
    | cons first before ih =>
      obtain ⟨hfirst, hbefore⟩ := List.forall_mem_cons.mp hbefore
      exact (forM_cons_of_ok hfirst).trans (ih hbefore)

end Loops

namespace Document

variable {doc : Document} {settings : Settings} {p : Profile} {page : ObjectId}

/-- Nothing is wrong with the way up from the page, and the resources that it leads to are accepted,
if there are any. -/
structure Furnishes (doc : Document) (p : Profile) (maxDepth : Nat) (page : ObjectId) : Prop where
  ascent : ∀ obstacle, ¬ doc.Ascent "Resources" page (.error obstacle)
  accepted : ∀ resources, doc.Ascent "Resources" page (.ok (some resources)) →
    Question.resources.outcome doc p maxDepth none resources = .ok ()

/-- What is wrong with a page: the way up, or the resources that it leads to. -/
inductive Obstructs (doc : Document) (p : Profile) (maxDepth : Nat) (page : ObjectId) :
    Obstacle → Prop
  | ascent {obstacle : Obstacle} : doc.Ascent "Resources" page (.error obstacle) →
      Obstructs doc p maxDepth page obstacle
  | resources {resources : Object} {cause : Fault} :
      doc.Ascent "Resources" page (.ok (some resources)) →
      Question.resources.outcome doc p maxDepth none resources = .error cause →
      Obstructs doc p maxDepth page (.nonconforming cause)

theorem furnishes_iff {maxDepth : Nat} :
    doc.Furnishes p maxDepth page ↔ ∀ obstacle, ¬ doc.Obstructs p maxDepth page obstacle := by
  constructor
  · rintro ⟨hascent, haccepted⟩ obstacle hobstructs
    cases hobstructs with
    | ascent hends => exact hascent obstacle hends
    | resources hends hrefused =>
      rw [haccepted _ hends] at hrefused
      cases hrefused
  · intro h
    refine ⟨fun obstacle hends => h obstacle (.ascent hends), fun resources hends => ?_⟩
    cases houtcome : Question.resources.outcome doc p maxDepth none resources with
    | ok _ => rfl
    | error cause => exact absurd (.resources hends houtcome) (h _)

/-- What a caller who has not cancelled is told of the resources. -/
theorem conclude_eq_error_iff (hrunning : settings.cancelled? ≠ some true) {resources : Object}
    {obstacle : Obstacle} :
    doc.conclude settings (resourceDictionary p settings.maxDepth resources) = .error obstacle ↔
      ∃ cause, Question.resources.outcome doc p settings.maxDepth none resources = .error cause ∧
        obstacle = .nonconforming cause := by
  have hconclude : doc.conclude settings (resourceDictionary p settings.maxDepth resources) =
      (Question.resources.outcome doc p settings.maxDepth none resources).mapError
        .nonconforming := by
    rw [conclude, Settings.patience, if_neg hrunning]
    rfl
  rw [hconclude]
  cases Question.resources.outcome doc p settings.maxDepth none resources with
  | ok _ => simp [Except.mapError]
  | error cause => simp [Except.mapError, eq_comm]

/-- One page is inspected as its way up ends. -/
theorem inspectResources_of_ascent {result : Except Obstacle (Option Object)}
    (h : doc.Ascent "Resources" page result) :
    doc.inspectResources settings p page = match result with
      | .ok (some resources) =>
        doc.conclude settings (resourceDictionary p settings.maxDepth resources)
      | .ok none => .ok ()
      | .error obstacle => .error obstacle := by
  rw [inspectResources, h.inherited?_eq]
  cases result with
  | ok value? => cases value? <;> rfl
  | error obstacle => rfl

theorem inspectResources_eq_error_iff (hrunning : settings.cancelled? ≠ some true)
    {obstacle : Obstacle} :
    doc.inspectResources settings p page = .error obstacle ↔
      doc.Obstructs p settings.maxDepth page obstacle := by
  constructor
  · intro h
    obtain ⟨result, hends, -⟩ := existsUnique_ascent doc "Resources" page
    rw [inspectResources_of_ascent hends] at h
    cases result with
    | error _ => cases h; exact .ascent hends
    | ok value? =>
      cases value? with
      | none => cases h
      | some resources =>
        obtain ⟨cause, hrefused, rfl⟩ := (conclude_eq_error_iff hrunning).mp h
        exact .resources hends hrefused
  · intro h
    cases h with
    | ascent hends => exact inspectResources_of_ascent hends
    | resources hends hrefused =>
      rw [inspectResources_of_ascent hends]
      exact (conclude_eq_error_iff hrunning).mpr ⟨_, hrefused, rfl⟩

theorem inspectResources_eq_ok_iff (hrunning : settings.cancelled? ≠ some true) :
    doc.inspectResources settings p page = .ok () ↔ doc.Furnishes p settings.maxDepth page := by
  simp only [furnishes_iff, ← inspectResources_eq_error_iff hrunning]
  cases doc.inspectResources settings p page with
  | ok _ => simp
  | error obstacle => simp

theorem inspectPageResources_eq (pages : List ObjectId) (hversion : doc.profile settings = .ok p) :
    doc.inspectPageResources settings pages = pages.forM (doc.inspectResources settings p) := by
  rw [inspectPageResources, hversion]
  rfl

end Document

/-- The resources of the pages listed are accepted if no way up from a page is broken and all
resources that the pages have or inherit are accepted as a caller's would be. Otherwise the first
page of the list that is refused tells why: its resources are, or the way up from it comes to a node
that is not stored as a dictionary, to one that it has passed, or to one too many. Each way up ends
in one of these, with one value or with none. -/
theorem inspectPageResources_iff {doc : Document} {settings : Settings} {p : Profile}
    (pages : List ObjectId) (hversion : doc.profile settings = .ok p)
    (hrunning : settings.cancelled? ≠ some true) :
    (doc.inspectPageResources settings pages = .ok () ↔
      ∀ page ∈ pages, doc.Furnishes p settings.maxDepth page) ∧
    (∀ obstacle, doc.inspectPageResources settings pages = .error obstacle ↔
      ∃ before page after, pages = before ++ page :: after ∧
        (∀ earlier ∈ before, doc.Furnishes p settings.maxDepth earlier) ∧
        doc.Obstructs p settings.maxDepth page obstacle) ∧
    (∀ page, ∃! result, doc.Ascent "Resources" page result) ∧
    (∀ id, (Obstacle.endlessTree id).message = "Invalid PDF: page tree loops through " ++ id.text ∧
      (Obstacle.brokenNode id).message =
        "Invalid PDF: page tree node " ++ id.text ++ " is not a dictionary") := by
  rw [Document.inspectPageResources_eq pages hversion]
  refine ⟨?_, fun obstacle => ?_, doc.existsUnique_ascent "Resources", fun id => ⟨rfl, rfl⟩⟩
  · simp only [forM_eq_ok_iff, Document.inspectResources_eq_ok_iff hrunning]
  · simp only [forM_eq_error_iff, Document.inspectResources_eq_ok_iff hrunning,
      Document.inspectResources_eq_error_iff hrunning]

/-- A page that inherits the resources of the root by way of a node between them, and one whose way
up turns back to it; the root has these of the two below it. -/
def pageTree (kids : List Object) : Document where
  header := "1.7"
  trailer := [(Text.Utf8.encode "Root", .reference ⟨1, 0⟩)]
  objects := .ofList [
    (⟨1, 0⟩, .dictionary [(Text.Utf8.encode "Pages", .reference ⟨2, 0⟩)]),
    (⟨2, 0⟩, .dictionary [(Text.Utf8.encode "Kids", .array kids),
      (Text.Utf8.encode "Resources", .dictionary [(Text.Utf8.encode "Font", .dictionary [])])]),
    (⟨3, 0⟩, .dictionary [tag "Pages", (Text.Utf8.encode "Kids", .array [.reference ⟨4, 0⟩]),
      (Text.Utf8.encode "Parent", .reference ⟨2, 0⟩)]),
    (⟨4, 0⟩, .dictionary [tag "Page", (Text.Utf8.encode "Parent", .reference ⟨3, 0⟩)]),
    (⟨5, 0⟩, .dictionary [tag "Page", (Text.Utf8.encode "Parent", .reference ⟨6, 0⟩)]),
    (⟨6, 0⟩, .dictionary [(Text.Utf8.encode "Parent", .reference ⟨5, 0⟩)])]
where
  tag (type : String) : Bytes × Object :=
    (Text.Utf8.encode "Type", .name (Text.Utf8.encode type))

/-- The pages are those that the page tree lists. -/
theorem inspectPageResources_iff_pageTree :
    ((pageTree [.reference ⟨3, 0⟩]).profile {} = .ok ⟨.v1_7, .relaxed⟩ ∧
      (pageTree [.reference ⟨3, 0⟩]).inspectPageResources {}
        (pageTree [.reference ⟨3, 0⟩]).pages = .ok () ∧
      (pageTree [.reference ⟨3, 0⟩]).Furnishes ⟨.v1_7, .relaxed⟩ 64 ⟨4, 0⟩) ∧
    (pageTree [.reference ⟨3, 0⟩, .reference ⟨5, 0⟩]).inspectPageResources {}
        (pageTree [.reference ⟨3, 0⟩, .reference ⟨5, 0⟩]).pages = .error (.endlessTree ⟨5, 0⟩) ∧
      ∃ before page after,
        (pageTree [.reference ⟨3, 0⟩, .reference ⟨5, 0⟩]).pages = before ++ page :: after ∧
        (∀ earlier ∈ before, (pageTree [.reference ⟨3, 0⟩, .reference ⟨5, 0⟩]).Furnishes
          ⟨.v1_7, .relaxed⟩ 64 earlier) ∧
        (pageTree [.reference ⟨3, 0⟩, .reference ⟨5, 0⟩]).Obstructs ⟨.v1_7, .relaxed⟩ 64 page
          (.endlessTree ⟨5, 0⟩) := by
  have hrunning : ({} : Settings).cancelled? ≠ some true := by decide
  have hversion (kids : List Object) : (pageTree kids).profile {} = .ok ⟨.v1_7, .relaxed⟩ := by
    have hheader : Version.ofText (pageTree kids).header = .ok .v1_7 := Version.ofText_text .v1_7
    simp only [Document.profile, Profile.ofHeader, hheader]
    rfl
  have hok : (pageTree [.reference ⟨3, 0⟩]).inspectPageResources {}
      (pageTree [.reference ⟨3, 0⟩]).pages = .ok () := by rfl
  have hrefused : (pageTree [.reference ⟨3, 0⟩, .reference ⟨5, 0⟩]).inspectPageResources {}
      (pageTree [.reference ⟨3, 0⟩, .reference ⟨5, 0⟩]).pages = .error (.endlessTree ⟨5, 0⟩) := by
    rfl
  have hpage : (⟨4, 0⟩ : ObjectId) ∈ (pageTree [.reference ⟨3, 0⟩]).pages := by decide
  obtain ⟨haccepts, -⟩ := inspectPageResources_iff _ (hversion [.reference ⟨3, 0⟩]) hrunning
  obtain ⟨-, hrefuses, -⟩ :=
    inspectPageResources_iff _ (hversion [.reference ⟨3, 0⟩, .reference ⟨5, 0⟩]) hrunning
  exact ⟨⟨hversion _, hok, haccepts.mp hok _ hpage⟩, hrefused, (hrefuses _).mp hrefused⟩

end PdfConformance

import PdfConformance.Proofs.PageResources

/-! # The nodes that pages are read from

Pages are listed by ids that lead to them by references to references: walking the page tree follows
those, and lists a page by the id in `Kids`. An inspection looks that id up as it is.
`brokenNode_only_if_aliased`: both come to one dictionary, unless what is stored under the id is a
reference. -/

namespace PdfConformance

namespace Document

variable {doc : Document} {id page : ObjectId} {node : Dict}

/-- What is stored under the id is a reference to another. -/
def IsAlias (doc : Document) (id : ObjectId) : Prop :=
  ∃ other, doc.get? id = some (.reference other)

/-- The id leads to a dictionary that is marked as a page. -/
def LeadsToPage (doc : Document) (id : ObjectId) : Prop :=
  ∃ node, doc.dictionary? id = some node ∧
    Dict.get? node (Text.Utf8.encode "Type") = some (.name (Text.Utf8.encode "Page"))

/-- Nothing is listed that is not a page. -/
def ListsPages (doc : Document) (pages : List ObjectId) : Prop :=
  ∀ page ∈ pages, doc.LeadsToPage page

/-! ## What is listed -/

theorem leadsToPage_of_pageNode {kid : Object} (h : doc.pageNode kid = .page id) :
    doc.LeadsToPage id := by
  unfold pageNode at h
  split at h
  · split at h
    · rename_i spelling hfound
      split at h
      · rename_i hpage
        cases h
        rw [hpage] at hfound
        exact Option.bind_eq_some_iff.mp hfound
      · split at h <;> cases h
    · cases h
  · cases h

theorem leadsToPage_of_mem_pagesFrom {budget : Nat} {siblings : List Object}
    {elders : List (List Object)} (h : page ∈ doc.pagesFrom budget siblings elders) :
    doc.LeadsToPage page := by
  induction budget generalizing siblings elders with
  | zero => cases h
  | succ budget ih =>
    rw [pagesFrom] at h
    split at h
    · cases h
    · split at h
      · rename_i hkid
        rcases List.mem_cons.mp h with rfl | h
        · exact leadsToPage_of_pageNode hkid
        · exact ih h
      · split at h
        · exact ih h
        · exact ih h
      · exact ih h

/-- Walking the page tree lists pages. -/
theorem listsPages_pages (doc : Document) : doc.ListsPages doc.pages := by
  intro page h
  rw [pages] at h
  split at h
  · exact leadsToPage_of_mem_pagesFrom h
  · cases h

/-- A dictionary that an id leads to is the one stored under it, if no reference is. -/
theorem stored_of_dictionary? (h : doc.dictionary? id = some node) :
    doc.get? id = some (.dictionary node) ∨ doc.IsAlias id := by
  unfold dictionary? object? at h
  cases hstored : doc.get? id with
  | none => rw [hstored] at h; cases h
  | some stored =>
    rw [hstored] at h
    cases stored with
    | dictionary entries => cases h; exact .inl rfl
    | reference other => exact .inr ⟨other, hstored⟩
    | _ => cases h

/-! ## What is inspected -/

variable {settings : Settings} {p : Profile}

theorem forall_ne_of_storedNode (h : doc.storedNode id = .error (.brokenNode page)) :
    id = page ∧ ∀ node, doc.get? page ≠ some (.dictionary node) := by
  unfold storedNode at h
  split at h
  · cases h
  · rename_i hstored
    cases h
    exact ⟨rfl, hstored⟩

/-- A conclusion is about what is judged. -/
theorem conclude_ne_brokenNode (settings : Settings) (inquiry : Inquiry Unit) :
    doc.conclude settings inquiry ≠ .error (.brokenNode page) := by
  unfold conclude
  cases inquiry.verdict doc.get? settings.patience with
  | ok _ => exact nofun
  | error _ => exact nofun

theorem forall_ne_of_inspectResources
    (h : doc.inspectResources settings p id = .error (.brokenNode page)) :
    ∀ node, doc.get? page ≠ some (.dictionary node) := by
  obtain ⟨result, hends, -⟩ := existsUnique_ascent doc "Resources" id
  rw [inspectResources_of_ascent hends] at h
  cases hends with
  | found _ _ _ => exact absurd h (conclude_ne_brokenNode settings _)
  | nowhere _ _ _ _ => cases h
  | broken _ hbroken => cases h; exact hbroken
  | endless _ _ _ => cases h

theorem forall_ne_of_inspectThumbnail
    (h : doc.inspectThumbnail settings p id = .error (.brokenNode page)) :
    ∀ node, doc.get? page ≠ some (.dictionary node) := by
  rw [inspectThumbnail] at h
  cases hnode : doc.storedNode id with
  | error obstacle =>
    rw [hnode] at h
    cases h
    exact (forall_ne_of_storedNode hnode).2
  | ok node =>
    rw [hnode] at h
    simp only [bind, Except.bind] at h
    cases hthumb : Dict.get? node (Text.Utf8.encode "Thumb") with
    | some thumb =>
      rw [hthumb] at h
      exact absurd h (conclude_ne_brokenNode settings _)
    | none =>
      rw [hthumb] at h
      cases h

theorem inspectThumbnails_eq (pages : List ObjectId) (hversion : doc.profile settings = .ok p) :
    doc.inspectThumbnails settings pages = pages.forM (doc.inspectThumbnail settings p) := by
  rw [inspectThumbnails, hversion]
  rfl

theorem storedNode_of_isAlias (h : doc.IsAlias page) :
    doc.storedNode page = .error (.brokenNode page) := by
  obtain ⟨other, hother⟩ := h
  refine storedNode_of_forall_ne fun node hnode => ?_
  rw [hother] at hnode
  cases hnode

theorem inspectResources_of_isAlias (h : doc.IsAlias page) :
    doc.inspectResources settings p page = .error (.brokenNode page) := by
  rw [inspectResources, inherited?, storedNode_of_isAlias h]
  rfl

theorem inspectThumbnail_of_isAlias (h : doc.IsAlias page) :
    doc.inspectThumbnail settings p page = .error (.brokenNode page) := by
  rw [inspectThumbnail, storedNode_of_isAlias h]
  rfl

/-- An inspection that is refused at a node has been refused there by one of the pages. -/
theorem forall_ne_of_inspection {pages : List ObjectId}
    (h : doc.inspectPageResources settings pages = .error (.brokenNode page) ∨
      doc.inspectThumbnails settings pages = .error (.brokenNode page)) :
    ∀ node, doc.get? page ≠ some (.dictionary node) := by
  cases hversion : doc.profile settings with
  | error obstacle =>
    have hobstacle : obstacle ≠ .brokenNode page := by
      rintro rfl
      unfold profile at hversion
      split at hversion
      · cases hversion
      · cases hheader : Profile.ofHeader doc.header settings.mode with
        | ok _ => rw [hheader] at hversion; cases hversion
        | error _ => rw [hheader] at hversion; cases hversion
    rw [inspectPageResources, inspectThumbnails, hversion] at h
    rcases h with h | h <;> exact absurd (Except.error.inj h) hobstacle
  | ok p =>
    rw [inspectPageResources_eq pages hversion, inspectThumbnails_eq pages hversion] at h
    rcases h with h | h
    · obtain ⟨_, _, _, -, -, hrefused⟩ := forM_eq_error_iff.mp h
      exact forall_ne_of_inspectResources hrefused
    · obtain ⟨_, _, _, -, -, hrefused⟩ := forM_eq_error_iff.mp h
      exact forall_ne_of_inspectThumbnail hrefused

end Document

/-- A page that is not listed by the id of a reference is inspected as the dictionary that the id
leads to, and is never refused for lack of one. One that is listed by such an id is refused as soon
as it comes to be inspected. This is so for every list of pages, and walking the page tree gives
one. -/
theorem brokenNode_only_if_aliased (doc : Document) (settings : Settings) :
    doc.ListsPages doc.pages ∧ ∀ pages, doc.ListsPages pages →
      (∀ page ∈ pages, ¬ doc.IsAlias page →
        ∃ node, doc.storedNode page = .ok node ∧ doc.dictionary? page = some node) ∧
      (∀ page ∈ pages, doc.inspectPageResources settings pages = .error (.brokenNode page) ∨
        doc.inspectThumbnails settings pages = .error (.brokenNode page) → doc.IsAlias page) ∧
      ∀ p before page after, doc.profile settings = .ok p → pages = before ++ page :: after →
        doc.IsAlias page →
        ((∀ earlier ∈ before, doc.inspectResources settings p earlier = .ok ()) →
          doc.inspectPageResources settings pages = .error (.brokenNode page)) ∧
        ((∀ earlier ∈ before, doc.inspectThumbnail settings p earlier = .ok ()) →
          doc.inspectThumbnails settings pages = .error (.brokenNode page)) := by
  refine ⟨doc.listsPages_pages, fun pages hlists =>
    ⟨fun page hpage halias => ?_, fun page hpage hrefused => ?_, ?_⟩⟩
  · obtain ⟨node, hnode, -⟩ := hlists page hpage
    have hstored := (Document.stored_of_dictionary? hnode).resolve_right halias
    exact ⟨node, Document.storedNode_of_get? hstored, hnode⟩
  · obtain ⟨node, hnode, -⟩ := hlists page hpage
    have hunstored := Document.forall_ne_of_inspection hrefused node
    exact (Document.stored_of_dictionary? hnode).resolve_left hunstored
  · intro p before page after hversion hpages halias
    constructor
    · intro hbefore
      rw [Document.inspectPageResources_eq pages hversion]
      exact forM_eq_error_iff.mpr
        ⟨before, page, after, hpages, hbefore, Document.inspectResources_of_isAlias halias⟩
    · intro hbefore
      rw [Document.inspectThumbnails_eq pages hversion]
      exact forM_eq_error_iff.mpr
        ⟨before, page, after, hpages, hbefore, Document.inspectThumbnail_of_isAlias halias⟩

/-- A document whose one page is listed by the id of a reference to it. -/
def aliasedPage : Document where
  header := "1.7"
  trailer := [(Text.Utf8.encode "Root", .reference ⟨1, 0⟩)]
  objects := .ofList [
    (⟨1, 0⟩, .dictionary [(Text.Utf8.encode "Pages", .reference ⟨2, 0⟩)]),
    (⟨2, 0⟩, .dictionary [(Text.Utf8.encode "Kids", .array [.reference ⟨3, 0⟩])]),
    (⟨3, 0⟩, .reference ⟨4, 0⟩),
    (⟨4, 0⟩, .dictionary [(Text.Utf8.encode "Type", .name (Text.Utf8.encode "Page")),
      (Text.Utf8.encode "Parent", .reference ⟨2, 0⟩)])]

theorem brokenNode_only_if_aliased_aliasedPage :
    (⟨3, 0⟩ : ObjectId) ∈ aliasedPage.pages ∧ aliasedPage.LeadsToPage ⟨3, 0⟩ ∧
      aliasedPage.IsAlias ⟨3, 0⟩ ∧
      aliasedPage.inspectPageResources { version? := some .v1_7 } aliasedPage.pages =
        .error (.brokenNode ⟨3, 0⟩) := by
  have hpage : (⟨3, 0⟩ : ObjectId) ∈ aliasedPage.pages := by decide
  obtain ⟨hlists, hinspected⟩ :=
    brokenNode_only_if_aliased aliasedPage { version? := some .v1_7 }
  obtain ⟨-, honly, hrefused⟩ := hinspected aliasedPage.pages hlists
  have hthumbnails : aliasedPage.inspectThumbnails { version? := some .v1_7 } aliasedPage.pages =
      .error (.brokenNode ⟨3, 0⟩) := by rfl
  have halias := honly _ hpage (.inr hthumbnails)
  have hpages : aliasedPage.pages = [] ++ ⟨3, 0⟩ :: [] := by rfl
  obtain ⟨hresources, -⟩ := hrefused _ _ _ _ rfl hpages halias
  exact ⟨hpage, hlists _ hpage, halias,
    hresources fun _ hmem => absurd hmem List.not_mem_nil⟩

/-- The page is listed, and both inspections say that it is no dictionary. -/
theorem aliasedPage_refused :
    (⟨3, 0⟩ : ObjectId) ∈ aliasedPage.pages ∧ aliasedPage.LeadsToPage ⟨3, 0⟩ ∧
      aliasedPage.inspectPageResources { version? := some .v1_7 } aliasedPage.pages =
        .error (.brokenNode ⟨3, 0⟩) ∧
      aliasedPage.inspectThumbnails { version? := some .v1_7 } aliasedPage.pages =
        .error (.brokenNode ⟨3, 0⟩) ∧
      (Obstacle.brokenNode ⟨3, 0⟩).message =
        "Invalid PDF: page tree node 3 0 is not a dictionary" :=
  ⟨by decide, ⟨_, rfl, rfl⟩, rfl, rfl, by decide⟩

end PdfConformance

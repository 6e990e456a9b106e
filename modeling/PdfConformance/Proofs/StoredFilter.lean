import PdfConformance.Proofs.AbsentEntries
import PdfConformance.Proofs.Indirection
import PdfConformance.Proofs.Locality

/-! # Filters behind a reference

`outcome_storedFilter`: the filter of a stream is read as it is stored, so that a filter which has
been moved behind a reference is none. Only the demands on the entries that the filter frees an image
of turn on it: the verdict stays the same unless the image lacks one of these, and then it is never
accepted. -/

namespace PdfConformance

open Inquiry

variable {find : ObjectId → Option Object} {doc : Document} {p : Profile} {header : Dict}
  {hint : Hint} {c key : String} {rule : Rule} {maxDepth : Nat}

/-- The header with no filter. -/
def unfiltered (header : Dict) : Dict := Dict.without header (Text.Utf8.encode "Filter")

/-- The filter tells what the entry would. -/
inductive Container.FreedOf (k : Container) : String → Prop
  | colours :
      k.SoleFilter "JPXDecode" ∨ k.profile.mode = .relaxed ∧ k.SoleFilter "CCITTFaxDecode" →
      FreedOf k "ColorSpace"
  | samples : k.SoleFilter "JPXDecode" → FreedOf k "BitsPerComponent"

/-- The object is an image, and no stencil, that lacks an entry which its filter frees it of. -/
structure NeedsFilter (find : ObjectId → Option Object) (p : Profile) (hint : Hint)
    (header : Dict) (key : String) : Prop where
  isImage : (designate p hint header).run find = .ok .image
  plain : ¬ Yields find header "ImageMask" (.boolean true)
  freed : (Container.mk find p header).FreedOf key
  absent : (Container.mk find p header).Absent key

/-- In the second header a reference to the id stands for the filter of the first, or for the one
element of the array that its filter is. -/
inductive MovesFilter (value : Object) (id : ObjectId) (header : Dict) : Dict → Prop
  | intro {declared declared' : Object} :
      Dict.get? header (Text.Utf8.encode "Filter") = some declared → declared.IsDeclaration →
      Object.Indirects value id declared declared' →
      MovesFilter value id header (Dict.set header (Text.Utf8.encode "Filter") declared')

/-! ## Moving a filter -/

/-- No reference declares a filter, and no array that holds one. -/
theorem Object.Indirects.not_isDeclaration_of_isDeclaration {value declared declared' : Object}
    {id : ObjectId} (h : Object.Indirects value id declared declared')
    (hdeclares : declared.IsDeclaration) : ¬ declared'.IsDeclaration := by
  obtain ⟨spelling, rfl | rfl⟩ := hdeclares
  · cases h
    simp [IsDeclaration]
  · generalize harray : Object.array [.name spelling] = declared at h
    cases h with
    | here => simp [IsDeclaration]
    | item hpart =>
      obtain ⟨rfl, rfl, rfl⟩ : _ = [] ∧ _ = Object.name spelling ∧ _ = [] := by
        simpa [List.append_eq_singleton_iff] using (Object.array.inj harray).symm
      cases hpart
      simp [IsDeclaration]
    | _ => cases harray

/-- Where nothing refers to an id it is not reached. -/
theorem Document.Lacks.not_reaches {object : Object} {id : ObjectId} (h : doc.Lacks object id) :
    ¬ Reaches doc.get? object id := by
  intro hreaches
  cases hreaches with
  | occurs hid => exact h.unnamed hid
  | through _ hstored hid => exact h.unreferred _ _ hstored hid

/-- A verdict is not changed by what is stored under an id that nothing refers to. -/
theorem Document.Lacks.outcome_store {object value : Object} {id : ObjectId}
    (h : doc.Lacks object id) (question : Question) (p : Profile) (maxDepth : Nat)
    (patience? : Option Nat) :
    question.outcome (doc.store id value) p maxDepth patience? object =
      question.outcome doc p maxDepth patience? object := by
  apply outcome_eq_of_reached
  intro other hother
  rw [Document.get?_store, if_neg]
  rintro rfl
  exact h.not_reaches hother

theorem Document.Lacks.unfiltered {id : ObjectId} (h : doc.Lacks (.stream header) id) :
    doc.Lacks (.stream (unfiltered header)) id := by
  refine ⟨fun hid => h.unnamed ?_, h.unreferred⟩
  obtain ⟨entry, hentry, hid⟩ := Object.mem_entryIds.mp hid
  exact Object.mem_entryIds.mpr ⟨entry, List.mem_of_mem_filter hentry, hid⟩

/-! No rule is for the filter itself. -/

theorem Grammar.key_ne_filter_of_mem_tags :
    ∀ rule ∈ externalTags.rules, Text.Utf8.encode rule.key ≠ Text.Utf8.encode "Filter" := by
  decide

theorem Designation.Binds.key_ne_filter {designation : Designation} {sheet : Sheet}
    (h : designation.Binds find header sheet) (hrule : rule ∈ sheet.rules) :
    Text.Utf8.encode rule.key ≠ Text.Utf8.encode "Filter" := by
  have hne : ∀ key ∈ ownKeys, Text.Utf8.encode key ≠ Text.Utf8.encode "Filter" := by decide
  exact hne _ (h.key_mem hrule)

/-- A filter that is not stored in its place is none. -/
theorem outcome_undeclared {declared : Object} (h : ¬ declared.IsDeclaration) :
    (Question.external hint).outcome doc p maxDepth none
        (.stream (Dict.set header (Text.Utf8.encode "Filter") declared)) =
      (Question.external hint).outcome doc p maxDepth none (.stream (unfiltered header)) := by
  have hl : (Likeness.identical doc.get?).Local := Likeness.sameDocument_local _ _ _
  have hcheck {rule : Rule} (hkey : Text.Utf8.encode rule.key ≠ Text.Utf8.encode "Filter")
      (c : String) : (Likeness.identical doc.get?).Mirrors Eq (rule.check p c (unfiltered header))
        (rule.check p c (Dict.set header (Text.Utf8.encode "Filter") declared)) := by
    rw [(Dict.sameBeside_without_set header _ declared).check_eq
      (Dict.sameFilters_without_set h header _) hkey]
    exact hl.refl _
  refine Likeness.Verdicts.eq_of_identical (verdicts_set (fun heq => absurd heq (by decide)) hl rfl
    ?_ ?_)
  · exact fun rule hrule => hcheck (Grammar.key_ne_filter_of_mem_tags rule hrule) _
  · exact fun _ _ sheet hbinds rule hrule => hcheck (hbinds.key_ne_filter hrule) _

/-! ## Without its filter -/

namespace Grammar

/-- Two entries of an image that is no stencil may be left to the filter. -/
theorem eq_of_readsFilters {stencil : Bool} :
    ∀ rule ∈ (image .primary stencil).rules, rule.demand.readsFilters = true →
      stencil = false ∧ (rule = .demanded .unlessColoured "ColorSpace" .colourSpace ∨
        rule = .demanded .unlessJpx "BitsPerComponent" .integer) := by
  cases stencil <;> decide

theorem readsFilters_form : ∀ rule ∈ form.rules, rule.demand.readsFilters = false := by decide

theorem readsFilters_imageTable :
    ∀ rule ∈ (imageTable .primary).sheet.rules, rule.demand.readsFilters = false := by decide

end Grammar

theorem get?_unfiltered {key : Bytes} (hkey : key ≠ Text.Utf8.encode "Filter") (header : Dict) :
    Dict.get? (unfiltered header) key = Dict.get? header key :=
  Dict.sameBeside_without header _ key hkey

theorem filteredOnlyBy_unfiltered (header : Dict) (filter : String) :
    Dict.filteredOnlyBy (unfiltered header) filter = false :=
  Dict.filteredOnlyBy_of_get?_eq_none (Dict.get?_without_self header _) filter

/-- Without its filter the more is required of a stream. -/
theorem isRequired_unfiltered (h : rule.isRequired p header = true) :
    rule.isRequired p (unfiltered header) = true := by
  unfold Rule.isRequired at h ⊢
  rw [Bool.and_eq_true] at h ⊢
  refine ⟨h.1, ?_⟩
  cases hdemand : rule.demand with
  | unlessJpx => simp [Demand.holds, filteredOnlyBy_unfiltered]
  | unlessColoured => simp [Demand.holds, filteredOnlyBy_unfiltered]
  | _ =>
    rw [hdemand] at h
    exact h.2

/-- What has been left to the filter is required without it. -/
theorem Container.FreedOf.exists_rule (h : (Container.mk find p header).FreedOf key) :
    ∃ rule ∈ (Grammar.image .primary false).rules, rule.key = key ∧
      rule.isRequired p header = false ∧ rule.isRequired p (unfiltered header) = true := by
  have hnot {demand : Demand} {key : String} {shape : Shape}
      (hdemand : ¬ (Container.mk find p header).Demands demand) :
      (Rule.demanded demand key shape).isRequired p header = false := by
    rw [← Container.holds_demand_iff, Bool.not_eq_true] at hdemand
    exact (congrArg _ hdemand).trans (Bool.and_false _)
  cases h with
  | colours hfilter =>
    refine ⟨.demanded .unlessColoured "ColorSpace" .colourSpace, by decide, rfl,
      hnot (not_not_intro hfilter), ?_⟩
    simp [Rule.isRequired, Demand.holds, filteredOnlyBy_unfiltered, Profile.covers_v1_0]
  | samples hfilter =>
    refine ⟨.demanded .unlessJpx "BitsPerComponent" .integer, by decide, rfl,
      hnot (not_not_intro hfilter), ?_⟩
    simp [Rule.isRequired, Demand.holds, filteredOnlyBy_unfiltered, Profile.covers_v1_0]

/-- What is required only without the filter has been left to it. -/
theorem readsFilters_of_isRequired (hless : rule.isRequired p header = false)
    (hmore : rule.isRequired p (unfiltered header) = true) : rule.demand.readsFilters = true := by
  by_contra hreads
  have hdemand : Likeness.SameDemand p header (unfiltered header) rule :=
    .of_readsFilters (Bool.eq_false_iff.mpr hreads) p _ _
  rw [hdemand.isRequired_eq, hless] at hmore
  cases hmore

/-- A rule that binds the object and requires an entry only without its filter is about an image
that is no stencil. -/
theorem needsFilter_of_binds {designation : Designation} {sheet : Sheet}
    (hrun : (designate p hint header).run find = .ok designation)
    (hbinds : designation.Binds find header sheet) (hrule : rule ∈ sheet.rules)
    (hless : rule.isRequired p header = false)
    (hmore : rule.isRequired p (unfiltered header) = true)
    (habsent : (Container.mk find p header).Absent rule.key) :
    NeedsFilter find p hint header rule.key ∧ sheet.container = "imageStream" := by
  have hreads := readsFilters_of_isRequired hless hmore
  cases hbinds with
  | form => simp [Grammar.readsFilters_form rule hrule] at hreads
  | imageTable => simp [Grammar.readsFilters_imageTable rule hrule] at hreads
  | @image stencil hstencil =>
    obtain ⟨rfl, hrules⟩ := Grammar.eq_of_readsFilters rule hrule hreads
    have hplain : ¬ Yields find header "ImageMask" (.boolean true) := by
      intro hyields
      cases hstencil.mpr hyields
    refine ⟨⟨hrun, hplain, ?_, habsent⟩, rfl⟩
    have hdemand : ¬ (Container.mk find p header).Demands rule.demand := by
      rw [← Container.holds_demand_iff]
      intro hholds
      rw [Rule.isRequired, hholds, Bool.and_true] at hless
      rw [Rule.isRequired, hless] at hmore
      cases hmore
    rcases hrules with rfl | rfl
    · exact .colours (not_not.mp hdemand)
    · exact .samples (not_not.mp hdemand)

/-- A check comes to the same without the filter, unless the entry is absent and required only
then. -/
theorem Rule.mirrors_unfiltered (hkey : Text.Utf8.encode rule.key ≠ Text.Utf8.encode "Filter")
    {turns : Fault → Fault → Prop} {excused : Fault → Prop}
    (h : rule.isRequired p header = false → rule.isRequired p (unfiltered header) = true →
      (Container.mk find p header).Absent rule.key →
      ∀ fault : Fault, fault.IsLack ⟨c, rule.key⟩ → excused fault) :
    (Likeness.sameDocument find turns excused).Mirrors Eq (rule.check p c header)
      (rule.check p c (unfiltered header)) := by
  have hl := Likeness.sameDocument_local find turns excused
  have hget := get?_unfiltered hkey header
  by_cases hsame : rule.isRequired p (unfiltered header) = rule.isRequired p header
  · rw [check_congr hget hsame]
    exact hl.refl _
  · obtain ⟨hless, hmore⟩ : rule.isRequired p header = false ∧
        rule.isRequired p (unfiltered header) = true := by
      cases hrequired : rule.isRequired p header with
      | true => exact absurd ((isRequired_unfiltered hrequired).trans hrequired.symm) hsame
      | false => exact ⟨rfl, by simpa [hrequired] using hsame⟩
    by_cases habsent : (Container.mk find p header).Absent rule.key
    · have hunfiltered : (Container.mk find p (unfiltered header)).Absent rule.key := by
        intro stored hstored
        exact habsent stored (hget.symm.trans hstored)
      obtain ⟨fault, hfault, hlack⟩ := run_check_of_absent (c := c) hmore hunfiltered
      refine ⟨?_, False.elim⟩
      change Likeness.Verdicts _ Eq _ ((rule.check p c (unfiltered header)).run find)
      rw [hfault]
      exact .excused (h hless hmore habsent fault hlack)
    · exact hl.of_run_eq (run_check_of_not_absent habsent hget)

/-- What the object is designated as has nothing to do with its filter. -/
theorem mirrors_designate_unfiltered {l : Likeness} (hl : l.Local) :
    l.Mirrors Eq (designate p hint header) (designate p hint (unfiltered header)) := by
  have htag {rule : Rule} (hrule : rule ∈ Grammar.externalTags.rules) :
      l.Mirrors Eq (rule.check p Grammar.external header)
        (rule.check p Grammar.external (unfiltered header)) := by
    have hget := get?_unfiltered (Grammar.key_ne_filter_of_mem_tags rule hrule) header
    rw [Rule.check_congr hget ((isRequired_tag hrule _).trans (isRequired_tag hrule _).symm)]
    exact hl.refl _
  apply hl.designate
  · exact htag List.mem_cons_self
  · exact htag (List.mem_cons_of_mem _ List.mem_cons_self)
  · intro _ _ _ _
    exact Designation.infer_eq_of_sameBeside (Dict.sameBeside_without header _)
      fun heq => absurd heq (by decide)

theorem run_designate_unfiltered :
    (designate p hint (unfiltered header)).run find = (designate p hint header).run find := by
  have hl : (Likeness.identical find).Local := Likeness.sameDocument_local _ _ _
  have hverdicts : (Likeness.identical find).Verdicts Eq ((designate p hint header).run find)
      ((designate p hint (unfiltered header)).run find) :=
    (mirrors_designate_unfiltered hl).verdicts
  exact hverdicts.eq_of_identical

/-- The verdict stays the same without the filter, unless an entry is lacking that was left to it. -/
theorem outcome_unfiltered (doc : Document) (p : Profile) (maxDepth : Nat) (hint : Hint)
    (header : Dict) :
    (Question.external hint).outcome doc p maxDepth none (.stream (unfiltered header)) =
        (Question.external hint).outcome doc p maxDepth none (.stream header) ∨
      ∃ key fault, NeedsFilter doc.get? p hint header key ∧
        fault.IsLack ⟨"imageStream", key⟩ ∧
        (Question.external hint).outcome doc p maxDepth none (.stream (unfiltered header)) =
          .error fault := by
  let excused (fault : Fault) : Prop :=
    ∃ key, NeedsFilter doc.get? p hint header key ∧ fault.IsLack ⟨"imageStream", key⟩
  have hl := Likeness.sameDocument_local doc.get? (fun _ _ => False) excused
  have hverdicts : (Likeness.sameDocument doc.get? (fun _ _ => False) excused).Verdicts Eq
      ((Question.external hint).outcome doc p maxDepth none (.stream header))
      ((Question.external hint).outcome doc p maxDepth none (.stream (unfiltered header))) := by
    apply Question.verdicts_stream hl rfl (mirrors_designate_unfiltered hl)
    intro designation hrun sheet hbinds rule hrule
    apply Rule.mirrors_unfiltered (hbinds.key_ne_filter hrule)
    intro hless hmore habsent fault hlack
    obtain ⟨hneeds, hcontainer⟩ := needsFilter_of_binds hrun hbinds hrule hless hmore habsent
    rw [hcontainer] at hlack
    exact ⟨rule.key, hneeds, hlack⟩
  generalize (Question.external hint).outcome doc p maxDepth none (.stream header) = filtered
    at hverdicts ⊢
  generalize (Question.external hint).outcome doc p maxDepth none (.stream (unfiltered header)) =
    verdict at hverdicts ⊢
  cases hverdicts with
  | ok hresult => exact .inl (by rw [hresult])
  | error hfault => exact .inl (by rw [hfault.resolve_right id])
  | excused hexcused =>
    obtain ⟨key, hneeds, hlack⟩ := hexcused
    exact .inr ⟨key, _, hneeds, hlack, rfl⟩

/-- An image that lacks such an entry is not accepted without its filter. -/
theorem NeedsFilter.outcome_ne_ok (h : NeedsFilter doc.get? p hint header key) :
    (Question.external hint).outcome doc p maxDepth none (.stream (unfiltered header)) ≠
      .ok () := by
  intro hok
  have hjudges : (Question.external hint).Judges doc.get? p (.stream (unfiltered header)) []
      (.external hint) (.stream (unfiltered header)) := .start (.direct rfl) rfl
  obtain ⟨levels, trail, -, hrun⟩ := hjudges.run hok
  have hplain : false = true ↔
      Yields doc.get? (unfiltered header) Grammar.imageMask.key (.boolean true) := by
    refine iff_of_false (by simp) fun hyields => h.plain ?_
    obtain ⟨hnull, stored, hget, hstands⟩ := hyields
    exact ⟨hnull, stored, (get?_unfiltered (by decide) header).symm.trans hget, hstands⟩
  have himage : (designate p hint (unfiltered header)).run doc.get? = .ok .image :=
    run_designate_unfiltered.trans h.isImage
  have hsheet := (Schema.Applies.designated himage (.image hplain)).run hrun
  obtain ⟨rule, hrule, rfl, -, hrequired⟩ := h.freed.exists_rule
  obtain ⟨found?, hfound⟩ := Sheet.exists_run_of_mem_rules hsheet hrule
  have habsent : (Container.mk doc.get? p (unfiltered header)).Absent rule.key := by
    intro stored hstored
    rw [get?_unfiltered ((Designation.Binds.image hplain).key_ne_filter hrule)] at hstored
    exact h.absent stored hstored
  obtain ⟨fault, hfault, -⟩ := Rule.run_check_of_absent hrequired habsent
  cases hfound.symm.trans hfault

/-- A stream whose filter, or the one element of whose filters, has been moved behind a reference is
judged as if it had no filter. That is as before, unless it is an image that lacks its colour space or
the size of its samples and has been freed of it by the filter: such an image is not accepted, and the
entry may be reported. -/
theorem outcome_storedFilter (doc : Document) (p : Profile) (maxDepth : Nat) (hint : Hint)
    {header header' : Dict} {value : Object} {id : ObjectId}
    (hmoves : MovesFilter value id header header') (hfresh : doc.Lacks (.stream header) id) :
    (Question.external hint).outcome (doc.store id value) p maxDepth none (.stream header') =
        (Question.external hint).outcome doc p maxDepth none (.stream (unfiltered header)) ∧
      ((Question.external hint).outcome (doc.store id value) p maxDepth none (.stream header') =
          (Question.external hint).outcome doc p maxDepth none (.stream header) ∨
        ∃ key fault, NeedsFilter doc.get? p hint header key ∧ fault.IsLack ⟨"imageStream", key⟩ ∧
          (Question.external hint).outcome (doc.store id value) p maxDepth none
            (.stream header') = .error fault) ∧
      ∀ key, NeedsFilter doc.get? p hint header key →
        (Question.external hint).outcome (doc.store id value) p maxDepth none (.stream header') ≠
          .ok () := by
  obtain ⟨-, hdeclares, hindirects⟩ := hmoves
  have hundeclared := hindirects.not_isDeclaration_of_isDeclaration hdeclares
  rw [outcome_undeclared hundeclared, hfresh.unfiltered.outcome_store _ p maxDepth none]
  refine ⟨rfl, outcome_unfiltered doc p maxDepth hint header, ?_⟩
  intro key hneeds
  exact hneeds.outcome_ne_ok

/-- A document in which nothing is stored, and the header of an image in JPEG 2000. -/
def photograph : Document where
  header := "1.7"
  trailer := []
  objects := .ofList []
where
  filter : Object := .name (Text.Utf8.encode "JPXDecode")
  entries : Dict := [
    (Text.Utf8.encode "Subtype", .name (Text.Utf8.encode "Image")),
    (Text.Utf8.encode "Width", .integer 1),
    (Text.Utf8.encode "Height", .integer 1),
    (Text.Utf8.encode "Filter", filter)]
  moved : Dict := Dict.set entries (Text.Utf8.encode "Filter") (.reference ⟨9, 0⟩)

theorem movesFilter_photograph :
    MovesFilter photograph.filter ⟨9, 0⟩ photograph.entries photograph.moved :=
  .intro rfl ⟨_, .inl rfl⟩ .here

theorem lacks_photograph : photograph.Lacks (.stream photograph.entries) ⟨9, 0⟩ where
  unnamed := by decide
  unreferred := fun _ _ hstored => nomatch hstored

/-- The image needs no colour space as it is. With its filter stored as an object of its own it is
found to lack one. -/
theorem outcome_storedFilter_photograph :
    MovesFilter photograph.filter ⟨9, 0⟩ photograph.entries photograph.moved ∧
      photograph.Lacks (.stream photograph.entries) ⟨9, 0⟩ ∧
      NeedsFilter photograph.get? ⟨.v1_7, .strict⟩ .any photograph.entries "ColorSpace" ∧
      (Question.external .any).outcome photograph ⟨.v1_7, .strict⟩ 64 none
        (.stream photograph.entries) = .ok () ∧
      (Question.external .any).outcome (photograph.store ⟨9, 0⟩ photograph.filter)
        ⟨.v1_7, .strict⟩ 64 none (.stream photograph.moved) =
          .error (.missingEntry ⟨"imageStream", "ColorSpace"⟩) := by
  have hneeds : NeedsFilter photograph.get? ⟨.v1_7, .strict⟩ .any photograph.entries
      "ColorSpace" := by
    refine ⟨rfl, ?_, .colours (.inl (.inl rfl)), fun stored hstored => nomatch hstored⟩
    rintro ⟨-, stored, hget, -⟩
    cases hget
  obtain ⟨hsame, -, -⟩ := outcome_storedFilter photograph ⟨.v1_7, .strict⟩ 64 .any
    movesFilter_photograph lacks_photograph
  exact ⟨movesFilter_photograph, lacks_photograph, hneeds, rfl, hsame.trans rfl⟩

/-- How the filter is stored does make a difference. -/
theorem outcome_storedFilter_ne :
    ¬ ∀ (doc : Document) (p : Profile) (maxDepth : Nat) (hint : Hint) (header header' : Dict)
      (value : Object) (id : ObjectId), MovesFilter value id header header' →
      doc.Lacks (.stream header) id →
      (Question.external hint).outcome (doc.store id value) p maxDepth none (.stream header') =
        (Question.external hint).outcome doc p maxDepth none (.stream header) := by
  intro h
  have hsame := h photograph ⟨.v1_7, .strict⟩ 64 .any photograph.entries photograph.moved
    photograph.filter ⟨9, 0⟩ movesFilter_photograph lacks_photograph
  have hok : (Question.external .any).outcome photograph ⟨.v1_7, .strict⟩ 64 none
      (.stream photograph.entries) = .ok () := by rfl
  rw [hok] at hsame
  cases hsame

end PdfConformance

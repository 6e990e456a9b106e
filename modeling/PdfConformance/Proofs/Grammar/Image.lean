import PdfConformance.Proofs.Grammar.Parts

/-! # What images are

An image is told by its entries, by what is asked of images in its place, and by the images it holds
in turn: its masks, and those it may be replaced by. `ImageEntries` is the grammar of the entries,
given what the images held are to be; `IsImage` closes it under them. `judgeImage_eq_ok_iff`: the
images that are accepted are these. -/

namespace PdfConformance

open Inquiry

/-- The image is a stencil: its samples tell where to paint, not in which colour. -/
def Container.IsStencil (k : Container) : Prop :=
  k.Holds "ImageMask" fun value => value = .boolean true

/-- Masks are tagged, soft ones in strict mode only. A tag that is present is never another. -/
def HasImageTags (k : Container) : ImageUse → Prop
  | .primary | .alternate => True
  | .softMask => k.Allows "Type" (Object.Spells ["XObject"]) ∧
      k.HoldsIf (k.profile.mode = .strict) "Subtype" (Object.Spells ["Image"])
  | .explicitMask => k.Allows "Type" (Object.Spells ["XObject"]) ∧
      k.Holds "Subtype" (Object.Spells ["Image"])

/-- A stencil has one bit for each sample. Any other image has colours and tells the size of its
samples, unless its data tell them. -/
def HasSamples (k : Container) : Prop :=
  (k.IsStencil → k.Allows "BitsPerComponent" fun value => value = .integer 1) ∧
    (¬ k.IsStencil →
      k.HoldsIf (¬ (k.SoleFilter "JPXDecode" ∨
          k.profile.mode = .relaxed ∧ k.SoleFilter "CCITTFaxDecode"))
        "ColorSpace" (Object.IsColourSpace k.find) ∧
      k.HoldsIf (¬ k.SoleFilter "JPXDecode") "BitsPerComponent" (Object.OfKind [.integer]))

section Grammar

-- what the images that an image holds are to be, by how the walk stands there and by their use
variable (Inner : Walk → ImageUse → Container → Prop)

/-- A dictionary that holds an image to replace another by. -/
@[mk_iff]
structure IsAlternateImage (walk : Walk) (k : Container) : Prop where
  defaultForPrinting : k.Allows "DefaultForPrinting" (Object.OfKind [.boolean])
  image : k.Enters walk "Image" fun inner => k.Stream (Inner inner .alternate)
  optionalContent : k.AllowsSince .v1_5 "OC" (k.Dictionary IsOptionalContent)

/-- An image that may replace another, or the dictionary that holds one. It may be absent. -/
def IsAlternate (walk : Walk) (k : Container) (item : Object) : Prop :=
  item.Absent k.find ∨ walk.Admits item ∧ ∃ value, Resolves k.find item value ∧
    (k.Stream (Inner (walk.next item) .alternate) value ∨
      k.Dictionary (IsAlternateImage Inner (walk.next item)) value)

/-- Only a primary image may be replaced by others. -/
def HasAlternates (walk : Walk) (use : ImageUse) (k : Container) : Prop :=
  (use = .primary → k.MayEnter walk .v1_3 "Alternates" fun inner value =>
    ∃ items, value = .array items ∧ ∀ item ∈ items, IsAlternate Inner inner k item) ∧
  (use ≠ .primary → k.AllowsSince .v1_3 "Alternates" fun value => value = .array [])

/-- A mask is an array of colours or an image. A stencil has none, and neither is an explicit mask
masked by an image. -/
def HasMask (walk : Walk) (use : ImageUse) (k : Container) : Prop :=
  (k.IsStencil → k.Absent "Mask") ∧
    (¬ k.IsStencil → k.AllowsSince .v1_3 "Mask" (Object.OfKind [.array]) ∨ use ≠ .explicitMask ∧
      k.MayEnter walk .v1_3 "Mask" fun inner => k.Stream (Inner inner .explicitMask))

/-- The entries of an image. -/
@[mk_iff]
structure ImageEntries (walk : Walk) (use : ImageUse) (k : Container) : Prop where
  tags : HasImageTags k use
  width : k.Holds "Width" (Object.OfKind [.integer])
  height : k.Holds "Height" (Object.OfKind [.integer])
  imageMask : k.Allows "ImageMask" (Object.OfKind [.boolean])
  plain : use = .explicitMask → ¬ k.IsStencil
  samples : HasSamples k
  intent : k.AllowsSince .v1_1 "Intent" (Object.Spells
    ["AbsoluteColorimetric", "RelativeColorimetric", "Saturation", "Perceptual"])
  decode : k.Allows "Decode" (Object.ArrayOf k.find (Object.OfKind Kind.numbers))
  interpolate : k.Allows "Interpolate" (Object.OfKind [.boolean])
  mask : HasMask Inner walk use k
  alternates : HasAlternates Inner walk use k
  softMask : k.MayEnter walk .v1_4 "SMask" fun inner => k.Stream (Inner inner .softMask)
  matte : use = .softMask →
    k.AllowsSince .v1_4 "Matte" (Object.ArrayOf k.find (Object.OfKind Kind.numbers))
  maskInData : k.Allows "SMaskInData" (Object.Between 0 2)
  name : k.HoldsIf (k.profile.version = .v1_0) "Name" (Object.OfKind [.name])
  structParent : k.AllowsSince .v1_3 "StructParent" (Object.OfKind [.integer])
  id : k.AllowsSince .v1_3 "ID" (Object.OfKind Kind.strings)
  prepress : k.MayEnter walk .v1_2 "OPI" fun inner => k.Dictionary (IsPrepress inner)
  metadata : k.AllowsSince .v1_4 "Metadata" (k.Stream IsMetadata)
  optionalContent : k.AllowsSince .v1_5 "OC" (k.Dictionary IsOptionalContent)

end Grammar

/-- An image, with this far to go: what it holds in turn are images, all the way down. -/
inductive IsImage : Walk → ImageUse → Container → Prop
  | intro {walk : Walk} {use : ImageUse} {k : Container}
      (Inner : Walk → ImageUse → Container → Prop) :
      (∀ walk use k, Inner walk use k → IsImage walk use k) → ImageEntries Inner walk use k →
      IsImage walk use k

variable {find : ObjectId → Option Object} {p : Profile} {levels : Nat} {trail : Trail}
  {header : Dict} {c : String} {use : ImageUse} {enter : Enter}

/-- The images that are accepted. -/
def ImageAccepted (walk : Walk) (use : ImageUse) (k : Container) : Prop :=
  (judgeImage k.profile (deeper k.profile walk.levels walk.trail) use k.entries).run k.find = .ok ()

theorem run_enterImage_iff {key : String} {demand : Demand} {since : Version} :
    ((Clause.enter ⟨key, .stream, demand, since, none⟩ (.image use)).check p (deeper p levels trail)
        c header).run find = .ok () ↔
      (Container.mk find p header).Omits ⟨key, .stream, demand, since, none⟩ ∨ p.Permits since ∧
        (Container.mk find p header).Enters ⟨levels, trail⟩ key fun inner =>
          (Container.mk find p header).Stream (ImageAccepted inner use) :=
  Clause.run_enter_stream rfl fun _ _ => Iff.rfl

/-! ## Alternates -/

theorem run_alternateImage_iff :
    (Grammar.alternateImage.check p (deeper p levels trail) header).run find = .ok () ↔
      IsAlternateImage ImageAccepted ⟨levels, trail⟩ ⟨find, p, header⟩ := by
  rw [Sheet.run_check_iff, isAlternateImage_iff]
  simp only [Grammar.alternateImage, List.forall_mem_cons, Clause.run_obey_iff, Rule.required_eq,
    run_enterImage_iff, run_optionalContentClause_iff]
  simp [Container.Demands, Container.permits_v1_0, Shape.Fits, Shape.kinds]

theorem run_judgeAlternate_iff {item : Object} :
    (judgeAlternate (deeper p levels trail) item).run find = .ok () ↔
      IsAlternate ImageAccepted ⟨levels, trail⟩ ⟨find, p, header⟩ item := by
  constructor
  · intro h
    obtain ⟨value?, hvalue, h⟩ := exists_of_run_bind h
    cases value? with
    | none =>
      rcases run_valueIfAny_eq_none.mp hvalue with rfl | ⟨-, habsent⟩
      · exact .inl (.inl rfl)
      · exact .inl habsent
    | some value =>
      obtain ⟨hresolves, -⟩ := run_valueIfAny_eq_some.mp hvalue
      cases value with
      | stream inner =>
        obtain ⟨hadmits, h⟩ := run_deeper_eq_ok.mp h
        exact .inr ⟨hadmits, _, hresolves, .inl ⟨inner, rfl, h⟩⟩
      | dictionary entries =>
        obtain ⟨hadmits, h⟩ := run_deeper_eq_ok.mp h
        exact .inr ⟨hadmits, _, hresolves, .inr ⟨entries, rfl, run_alternateImage_iff.mp h⟩⟩
      | _ => cases h
  · rintro (habsent | ⟨hadmits, value, hresolves, hstream | hdictionary⟩)
    · unfold judgeAlternate
      rw [run_bind_of_run (run_valueIfAny_eq_none.mpr (.inr ⟨rfl, habsent⟩))]
      rfl
    · obtain ⟨inner, rfl, h⟩ := hstream
      unfold judgeAlternate
      rw [run_bind_of_run (run_valueIfAny_eq_some.mpr ⟨hresolves, by simp⟩)]
      exact run_deeper_eq_ok.mpr ⟨hadmits, h⟩
    · obtain ⟨entries, rfl, h⟩ := hdictionary
      unfold judgeAlternate
      rw [run_bind_of_run (run_valueIfAny_eq_some.mpr ⟨hresolves, by simp⟩)]
      exact run_deeper_eq_ok.mpr ⟨hadmits, run_alternateImage_iff.mpr h⟩

theorem run_judgeAlternates_iff (header : Dict) {inner : Walk} {value : Object} :
    value.kind = .array ∧ (judge p (deeper p inner.levels inner.trail) .alternates value).run find =
        .ok () ↔
      ∃ items, value = .array items ∧
        ∀ item ∈ items, IsAlternate ImageAccepted inner ⟨find, p, header⟩ item := by
  constructor
  · rintro ⟨hkind, h⟩
    obtain ⟨items, rfl⟩ := Object.eq_array_of_kind hkind
    exact ⟨items, rfl, fun item hitem => run_judgeAlternate_iff.mp (run_forM_eq_ok.mp h item hitem)⟩
  · rintro ⟨items, rfl, h⟩
    exact ⟨rfl, run_forM_eq_ok.mpr fun item hitem => run_judgeAlternate_iff.mpr (h item hitem)⟩

theorem run_alternatesClause_iff :
    ((Grammar.alternatesClause use).check p (deeper p levels trail) c header).run find = .ok () ↔
      HasAlternates ImageAccepted ⟨levels, trail⟩ use ⟨find, p, header⟩ := by
  have harray (value : Object) :
      Grammar.alternates.Accepts find p.mode value ↔ value.kind = .array := by
    simp [Grammar.alternates, Shape.Fits, Shape.kinds, Object.OfKind]
  have hempty (value : Object) :
      value.kind = .array ∧ value.isEmptyArray = true ↔ value = .array [] := by
    cases value with
    | string form content => cases form <;> simp [Object.kind, Object.isEmptyArray]
    | _ => simp [Object.kind, Object.isEmptyArray]
  unfold Grammar.alternatesClause HasAlternates
  by_cases huse : use = .primary
  · rw [if_pos huse, Clause.run_enter_iff_enters harray]
    simp only [huse, Schema.kind, run_judgeAlternates_iff header]
    simp [Grammar.alternates, Container.MayEnter]
  · rw [if_neg huse, Clause.run_empty_iff]
    simp only [harray, hempty]
    simp [huse, Grammar.alternates, Container.AllowsSince]

/-! ## Masks -/

/-- An array is not entered. -/
theorem run_enterMask_iff {schema : Schema} {Q : Walk → Container → Prop}
    (hkind : schema.kind = .stream)
    (hQ : ∀ inner header, (judge p (deeper p inner.levels inner.trail) schema (.stream header)).run
      find = .ok () ↔ Q inner ⟨find, p, header⟩) :
    ((Clause.enter Grammar.mask schema).check p (deeper p levels trail) c header).run find =
        .ok () ↔
      (Container.mk find p header).AllowsSince .v1_3 "Mask" (Object.OfKind [.array]) ∨
        (Container.mk find p header).MayEnter ⟨levels, trail⟩ .v1_3 "Mask" fun inner =>
          (Container.mk find p header).Stream (Q inner) := by
  have haccepts (value : Object) :
      Grammar.mask.Accepts find p.mode value ↔ value.kind = .stream ∨ value.kind = .array := by
    simp [Grammar.mask, Shape.Fits, Shape.kinds, Object.OfKind]
  have hkey : Grammar.mask.key = "Mask" := rfl
  have hintroduced : Grammar.mask.introduced = .v1_3 := rfl
  have homits : (Container.mk find p header).Omits Grammar.mask ↔
      (Container.mk find p header).Absent "Mask" := Container.omits_never
  rw [Clause.run_enter_iff]
  simp only [haccepts, hkind, hkey, hintroduced, homits]
  constructor
  · rintro (habsent | ⟨hpermits, stored, value, husable, hstream | harray, h⟩)
    · exact .inl (.inl habsent)
    · obtain ⟨inner, rfl⟩ := Object.eq_stream_of_kind hstream
      obtain ⟨hadmits, h⟩ := h rfl
      exact .inr (.inr ⟨hpermits, stored, _, husable, hadmits, inner, rfl, (hQ _ inner).mp h⟩)
    · exact .inl (.inr ⟨hpermits, stored, value, husable, List.mem_singleton.mpr harray⟩)
  · rintro ((habsent | ⟨hpermits, stored, value, husable, harray⟩) |
      (habsent | ⟨hpermits, stored, _, husable, hadmits, inner, rfl, h⟩))
    · exact .inl habsent
    · obtain ⟨items, rfl⟩ := Object.eq_array_of_kind (List.mem_singleton.mp harray)
      have hnotStream : Object.kind (.array items) ≠ .stream := by simp [Object.kind]
      exact .inr ⟨hpermits, stored, _, husable, .inr rfl, fun h => absurd h hnotStream⟩
    · exact .inl habsent
    · have hjudged := (hQ ((Walk.mk levels trail).next stored) inner).mpr h
      exact .inr ⟨hpermits, stored, _, husable, .inl rfl, fun _ => ⟨hadmits, hjudged⟩⟩

theorem run_maskClause_iff {stencil : Bool}
    (hstencil : stencil = true ↔ (Container.mk find p header).IsStencil) :
    ((Grammar.maskClause use stencil).check p (deeper p levels trail) c header).run find = .ok () ↔
      HasMask ImageAccepted ⟨levels, trail⟩ use ⟨find, p, header⟩ := by
  unfold Grammar.maskClause HasMask
  rw [← hstencil]
  cases stencil with
  | true => simp [Clause.run_absent_iff, Grammar.mask]
  | false =>
    simp only [Bool.false_eq_true, if_false, false_implies, not_false_eq_true, true_implies,
      true_and]
    by_cases huse : use = .explicitMask
    · have henter : ((Clause.enter Grammar.mask (.barred ⟨use.container, Grammar.mask.key⟩
          .maskedMask)).check p (deeper p levels trail) c header).run find = .ok () ↔
            (Container.mk find p header).AllowsSince .v1_3 "Mask" (Object.OfKind [.array]) ∨
              (Container.mk find p header).MayEnter ⟨levels, trail⟩ .v1_3 "Mask" fun _ =>
                (Container.mk find p header).Stream fun _ => False := by
        refine run_enterMask_iff rfl fun _ _ => ⟨fun h => ?_, False.elim⟩
        cases h
      rw [if_pos huse, henter]
      simp only [huse, ne_eq, not_true_eq_false, false_and, or_false]
      refine or_iff_left_of_imp fun h => ?_
      rcases h with habsent | ⟨-, stored, value, -, -, header, -, hfalse⟩
      · exact .inl habsent
      · exact hfalse.elim
    · have henter : ((Clause.enter Grammar.mask (.image .explicitMask)).check p
          (deeper p levels trail) c header).run find = .ok () ↔
            (Container.mk find p header).AllowsSince .v1_3 "Mask" (Object.OfKind [.array]) ∨
              (Container.mk find p header).MayEnter ⟨levels, trail⟩ .v1_3 "Mask" fun inner =>
                (Container.mk find p header).Stream (ImageAccepted inner .explicitMask) :=
        run_enterMask_iff rfl fun _ _ => Iff.rfl
      rw [if_neg huse, henter]
      simp [huse]

/-! ## Entries -/

/-- What is read off the entry for `ImageMask`. -/
theorem isStencil_iff_of_run {mask? : Option Entry}
    (h : (Grammar.imageMask.check p c header).run find = .ok mask?) :
    mask?.any (·.value.isTrue) = true ↔ (Container.mk find p header).IsStencil := by
  rw [stencil_iff_yields h]
  constructor
  · intro hyields
    obtain ⟨entry, rfl, hvalue⟩ := Rule.exists_of_yields h hyields
    obtain ⟨-, husable, -⟩ := Rule.run_check_eq_some.mp h
    exact ⟨entry.stored, entry.value, husable, hvalue⟩
  · rintro ⟨stored, _, ⟨hget, hresolves, hnull⟩, rfl⟩
    exact ⟨hnull, stored, hget, hresolves.stands⟩

theorem run_judgeImage_iff : (judgeImage p enter use header).run find = .ok () ↔
    ((Grammar.imageHead use).check p header).run find = .ok () ∧
      (Container.mk find p header).Obeys Grammar.imageMask ∧
      ∃ stencil, (stencil = true ↔ (Container.mk find p header).IsStencil) ∧
        ((Grammar.image use stencil).check p enter header).run find = .ok () := by
  constructor
  · intro h
    obtain ⟨_, hhead, h⟩ := exists_of_run_bind h
    obtain ⟨mask?, hmask, h⟩ := exists_of_run_bind h
    exact ⟨hhead, Rule.exists_run_iff.mp ⟨mask?, hmask⟩, _, isStencil_iff_of_run hmask, h⟩
  · rintro ⟨hhead, hobeys, stencil, hstencil, h⟩
    obtain ⟨mask?, hmask⟩ := Rule.exists_run_iff.mpr hobeys
    have heq : mask?.any (·.value.isTrue) = stencil :=
      Bool.eq_iff_iff.mpr ((isStencil_iff_of_run hmask).trans hstencil.symm)
    unfold judgeImage
    rw [run_bind_of_run hhead, run_bind_of_run hmask, heq]
    exact h

theorem run_imageHead_iff : ((Grammar.imageHead use).check p header).run find = .ok () ↔
    HasImageTags ⟨find, p, header⟩ use ∧
      (Container.mk find p header).Holds "Width" (Object.OfKind [.integer]) ∧
      (Container.mk find p header).Holds "Height" (Object.OfKind [.integer]) := by
  rw [RuleTable.run_check_iff]
  cases use <;> simp [Grammar.imageHead, Grammar.imageTags, HasImageTags, Container.Demands,
    Shape.Fits, Shape.kinds, and_assoc]

theorem run_sampleClauses_iff {stencil : Bool}
    (hstencil : stencil = true ↔ (Container.mk find p header).IsStencil) :
    (∀ clause ∈ Grammar.sampleClauses stencil, (clause.check p enter c header).run find = .ok ()) ↔
      HasSamples ⟨find, p, header⟩ := by
  unfold HasSamples
  rw [← hstencil]
  cases stencil <;> simp [Grammar.sampleClauses, Clause.run_obey_iff, Container.Demands,
    Shape.Fits, Shape.kinds]

theorem run_renderingClauses_iff :
    (∀ clause ∈ Grammar.renderingClauses, (clause.check p enter c header).run find = .ok ()) ↔
      (Container.mk find p header).AllowsSince .v1_1 "Intent" (Object.Spells
        ["AbsoluteColorimetric", "RelativeColorimetric", "Saturation", "Perceptual"]) ∧
      (Container.mk find p header).Allows "Decode"
        (Object.ArrayOf find (Object.OfKind Kind.numbers)) ∧
      (Container.mk find p header).Allows "Interpolate" (Object.OfKind [.boolean]) := by
  simp [Grammar.renderingClauses, Clause.run_obey_iff, Container.Demands, Shape.Fits, Shape.kinds]

/-- Once it is known whether an image is a stencil, its head and its sheet tell all its entries. -/
theorem run_imageSheet_iff {stencil : Bool}
    (hstencil : stencil = true ↔ (Container.mk find p header).IsStencil) :
    ((Grammar.imageHead use).check p header).run find = .ok () ∧
      (Container.mk find p header).Obeys Grammar.imageMask ∧
      ((Grammar.image use stencil).check p (deeper p levels trail) header).run find = .ok () ↔
      ImageEntries ImageAccepted ⟨levels, trail⟩ use ⟨find, p, header⟩ := by
  have hnever : (∀ clause ∈ if use = .explicitMask ∧ stencil = true then
      [Clause.never Grammar.imageMask.key .stencilAsMask] else [],
      (clause.check p (deeper p levels trail) use.container header).run find = .ok ()) ↔
        (use = .explicitMask → ¬ (Container.mk find p header).IsStencil) := by
    rw [← hstencil]
    split
    · rename_i h
      simp [Clause.run_never_iff, h]
    · rename_i h
      simpa using h
  have hmatte : (∀ clause ∈ if use = .softMask then
      [Clause.obey (.since .v1_4 (.optional "Matte" .numbers))] else [],
      (clause.check p (deeper p levels trail) use.container header).run find = .ok ()) ↔
        (use = .softMask → (Container.mk find p header).AllowsSince .v1_4 "Matte"
          (Object.ArrayOf find (Object.OfKind Kind.numbers))) := by
    split <;> simp [Clause.run_obey_iff, Shape.Fits, *]
  rw [Sheet.run_check_iff, run_imageHead_iff, imageEntries_iff]
  simp only [Grammar.image, List.forall_mem_append, hnever, hmatte, run_sampleClauses_iff hstencil,
    run_renderingClauses_iff]
  simp only [List.forall_mem_cons, run_maskClause_iff hstencil, run_alternatesClause_iff,
    Rule.optional_eq, Rule.since_mk, run_enterImage_iff, run_prepressClause_iff,
    run_metadataClause_iff, run_optionalContentClause_iff, Clause.run_obey_iff]
  simp [Grammar.structParent, Grammar.resourceName, Grammar.imageMask, Container.MayEnter,
    Container.Demands, Shape.Fits, Shape.kinds, and_assoc]

/-- An image is accepted if its entries are those of an image and the images it holds are
accepted. -/
theorem imageAccepted_iff {walk : Walk} {k : Container} :
    ImageAccepted walk use k ↔ ImageEntries ImageAccepted walk use k := by
  unfold ImageAccepted
  rw [run_judgeImage_iff]
  constructor
  · rintro ⟨hhead, hmask, stencil, hstencil, hsheet⟩
    exact (run_imageSheet_iff hstencil).mp ⟨hhead, hmask, hsheet⟩
  · intro h
    classical
    have hstencil : decide k.IsStencil = true ↔ k.IsStencil := decide_eq_true_iff
    obtain ⟨hhead, hmask, hsheet⟩ := (run_imageSheet_iff hstencil).mpr h
    exact ⟨hhead, hmask, _, hstencil, hsheet⟩

/-! ## Images within images -/

/-- Of the images deeper than the walk, what the first asks includes what the second does. -/
def Refines (walk : Walk) (Inner Inner' : Walk → ImageUse → Container → Prop) : Prop :=
  ∀ inner use k, inner.levels < walk.levels → Inner inner use k → Inner' inner use k

section Mono

variable {Inner Inner' : Walk → ImageUse → Container → Prop} {walk inner : Walk} {k : Container}

theorem Refines.stream (h : Refines walk Inner Inner') (hinner : inner.levels < walk.levels)
    {value : Object} (hvalue : k.Stream (Inner inner use) value) :
    k.Stream (Inner' inner use) value :=
  hvalue.mono fun k => h inner use k hinner

theorem Refines.deeper (h : Refines walk Inner Inner') (hinner : inner.levels < walk.levels) :
    Refines inner Inner Inner' :=
  fun deeper use k hdeeper => h deeper use k (hdeeper.trans hinner)

theorem IsAlternateImage.mono (himage : IsAlternateImage Inner walk k)
    (h : Refines walk Inner Inner') : IsAlternateImage Inner' walk k :=
  { himage with image := himage.image.mono fun _ _ hinner => h.stream hinner }

theorem IsAlternate.mono {item : Object} (halternate : IsAlternate Inner walk k item)
    (h : Refines walk Inner Inner') : IsAlternate Inner' walk k item := by
  rcases halternate with habsent | ⟨hadmits, value, hresolves, hvalue⟩
  · exact .inl habsent
  · have hinner := hadmits.levels_next_lt
    refine .inr ⟨hadmits, value, hresolves, hvalue.imp (h.stream hinner) fun hdictionary => ?_⟩
    exact hdictionary.mono fun _ himage => himage.mono (h.deeper hinner)

theorem HasAlternates.mono (halternates : HasAlternates Inner walk use k)
    (h : Refines walk Inner Inner') : HasAlternates Inner' walk use k := by
  refine ⟨fun huse => (halternates.1 huse).mono fun inner value hinner hvalue => ?_, halternates.2⟩
  obtain ⟨items, hitems, hall⟩ := hvalue
  exact ⟨items, hitems, fun item hitem => (hall item hitem).mono (h.deeper hinner)⟩

theorem HasMask.mono (hmask : HasMask Inner walk use k) (h : Refines walk Inner Inner') :
    HasMask Inner' walk use k := by
  refine ⟨hmask.1, fun hplain => (hmask.2 hplain).imp_right (And.imp_right fun hentered => ?_)⟩
  exact hentered.mono fun _ _ hinner => h.stream hinner

theorem ImageEntries.mono (hentries : ImageEntries Inner walk use k)
    (h : Refines walk Inner Inner') : ImageEntries Inner' walk use k :=
  { hentries with
    mask := hentries.mask.mono h
    alternates := hentries.alternates.mono h
    softMask := hentries.softMask.mono fun _ _ hinner => h.stream hinner }

end Mono

theorem isImage_iff {walk : Walk} {k : Container} :
    IsImage walk use k ↔ ImageEntries IsImage walk use k := by
  constructor
  · rintro ⟨Inner, himages, hentries⟩
    exact hentries.mono fun inner use k _ => himages inner use k
  · exact fun hentries => .intro IsImage (fun _ _ _ himage => himage) hentries

theorem imageAccepted_iff_isImage {walk : Walk} {k : Container} :
    ImageAccepted walk use k ↔ IsImage walk use k := by
  induction hlevels : walk.levels using Nat.strong_induction_on generalizing walk use k with
  | _ levels ih =>
    subst hlevels
    rw [imageAccepted_iff, isImage_iff]
    constructor
    · exact fun hentries => hentries.mono fun _ _ _ hinner => (ih _ hinner rfl).mp
    · exact fun hentries => hentries.mono fun _ _ _ hinner => (ih _ hinner rfl).mpr

/-- An image is accepted if it is an image by the grammar, whatever its place and however the walk
has come to it: no entry that is ill-formed is passed over, in it or in the images it holds, and no
image is refused. -/
theorem judgeImage_eq_ok_iff (find : ObjectId → Option Object) (p : Profile) (levels : Nat)
    (trail : Trail) (use : ImageUse) (header : Dict) :
    (judgeImage p (deeper p levels trail) use header).run find = .ok () ↔
      IsImage ⟨levels, trail⟩ use ⟨find, p, header⟩ := by
  have h : ImageAccepted ⟨levels, trail⟩ use ⟨find, p, header⟩ ↔
      IsImage ⟨levels, trail⟩ use ⟨find, p, header⟩ := imageAccepted_iff_isImage
  exact h

end PdfConformance

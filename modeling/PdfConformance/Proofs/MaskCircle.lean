import PdfConformance.Proofs.Judgement.Variation
import PdfConformance.Proofs.Nesting
import PdfConformance.Proofs.VersionGate

/-! # Images that mask each other

The mask of an image may lead back to the image. Up to its own mask an image is judged as if it had
none, so that what is told of it there depends on three checks in a row: whether it may be masked at
all, whether the walk may go one level deeper, and whether it may be masked in its place. The walk
goes no deeper by way of an id it has come by before; ids further along a chain of references do not
count. -/

namespace PdfConformance

open Inquiry

/-- The header without its mask. -/
def unmasked (header : Dict) : Dict :=
  header.filter fun entry => entry.1 ≠ Text.Utf8.encode "Mask"

/-- An image at `a` and its mask lead to each other, as masks. Either would be accepted if it had no
mask. -/
structure MaskCircle (doc : Document) (p : Profile) (hint : Hint) (a : ObjectId)
    (image mask : Dict) (stored back : Object) : Prop where
  allowed : p.mode = .relaxed ∨ .v1_3 ≤ p.version
  found : doc.get? a = some (.stream image)
  isImage : (designate p hint image).run doc.get? = .ok .image
  hasMask : Dict.get? image (Text.Utf8.encode "Mask") = some stored
  leads : ∃ ids, ids.length ≤ 32 ∧ Passes doc.get? ids stored (.stream mask)
  hasBack : Dict.get? mask (Text.Utf8.encode "Mask") = some back
  leadsBack : ∃ ids, ids.length ≤ 32 ∧ Passes doc.get? ids back (.stream image)
  imageAccepted : ∃ maxDepth,
    (Question.external .image).outcome doc p maxDepth none (.stream (unmasked image)) = .ok ()
  maskAccepted : ∃ maxDepth,
    (Question.external .image).outcome doc p maxDepth none (.stream (unmasked mask)) = .ok ()
  acceptedAsMask : ∃ levels trail, (judge p (deeper p levels trail) (.image .explicitMask)
    (.stream (unmasked mask))).run doc.get? = .ok ()

variable {find : ObjectId → Option Object} {p : Profile} {enter enter' : Enter} {c : String}
  {header inner : Dict} {stored : Object} {use : ImageUse} {fault : Fault}

/-! ## Without a mask -/

theorem Dict.sameBeside_unmasked (header : Dict) :
    SameBeside (Text.Utf8.encode "Mask") header (unmasked header) :=
  sameBeside_without header _

/-- The rule is for another entry than the mask. -/
def Rule.isBesideMask (rule : Rule) : Bool := Text.Utf8.encode rule.key ≠ Text.Utf8.encode "Mask"

/-- The clause is for another entry than the mask and enters none. -/
def Clause.isBesideMask : Clause → Bool
  | .obey rule => rule.isBesideMask
  | .never _ _ => true
  | _ => false

theorem Rule.check_unmasked {rule : Rule} (h : rule.isBesideMask = true) :
    rule.check p c (unmasked header) = rule.check p c header := by
  have hbeside := Dict.sameBeside_unmasked header
  exact hbeside.check_eq (hbeside.sameFilters (by decide)) (of_decide_eq_true h)

theorem Clause.check_unmasked {clause : Clause} (h : clause.isBesideMask = true) :
    clause.check p enter c (unmasked header) = clause.check p enter' c header := by
  cases clause with
  | obey rule => simp only [Clause.check, Rule.check_unmasked h]
  | never _ _ => rfl
  | _ => cases h

namespace Grammar

/-- The clauses of an image up to the one for its mask. -/
def beforeMask (use : ImageUse) (stencil : Bool) : List Clause :=
  (if use = .explicitMask ∧ stencil then [.never imageMask.key .stencilAsMask] else [])
    ++ sampleClauses stencil ++ renderingClauses

theorem exists_image_clauses_eq (use : ImageUse) (stencil : Bool) : ∃ after,
    (image use stencil).clauses = beforeMask use stencil ++ maskClause use stencil :: after := by
  simp [image, beforeMask]

theorem isBesideMask_beforeMask (use : ImageUse) (stencil : Bool) :
    ∀ clause ∈ beforeMask use stencil, clause.isBesideMask = true := by
  cases use <;> cases stencil <;> decide

theorem isBesideMask_imageHead (use : ImageUse) :
    ∀ rule ∈ (imageHead use).rules, rule.isBesideMask = true := by
  cases use <;> decide

end Grammar

/-- An image that is accepted without its mask comes as far as its mask, and fails if that does. -/
theorem exists_stencil_of_unmasked
    (h : (judgeImage p enter use (unmasked header)).run find = .ok ()) :
    ∃ stencil, (stencil = true ↔ Yields find header "ImageMask" (.boolean true)) ∧
      (use = .explicitMask → stencil = false) ∧
      ∀ enter' fault, ((Grammar.maskClause use stencil).check p enter' use.container header).run
        find = .error fault → (judgeImage p enter' use header).run find = .error fault := by
  obtain ⟨_, hhead, h⟩ := exists_of_run_bind h
  obtain ⟨mask?, hmask, hclauses⟩ := exists_of_run_bind h
  rw [Rule.check_unmasked (by decide)] at hmask
  have hhead' : ((Grammar.imageHead use).check p header).run find = .ok () := by
    rw [RuleTable.run_check_eq_ok] at hhead ⊢
    intro rule hrule
    rw [← Rule.check_unmasked (Grammar.isBesideMask_imageHead use rule hrule)]
    exact hhead rule hrule
  obtain ⟨after, hsheet⟩ := Grammar.exists_image_clauses_eq use (mask?.any (·.value.isTrue))
  unfold Sheet.check at hclauses
  rw [hsheet, run_forM_eq_ok] at hclauses
  refine ⟨mask?.any (·.value.isTrue), stencil_iff_yields hmask, ?_, ?_⟩
  · rintro rfl
    by_contra hstencil
    have hnever := hclauses (.never Grammar.imageMask.key .stencilAsMask)
      (by simp [Grammar.beforeMask, hstencil])
    cases hnever
  · intro enter' fault hfault
    unfold judgeImage
    rw [run_bind_of_run hhead', run_bind_of_run hmask]
    unfold Sheet.check
    rw [hsheet]
    refine run_forM_of_error (fun clause hclause => ?_) hfault
    rw [← Clause.check_unmasked (Grammar.isBesideMask_beforeMask use _ clause hclause)]
    exact hclauses clause (List.mem_append_left _ hclause)

theorem settle_image_ne_form {declared : Designation} :
    (settle p .image header declared).run find ≠ .ok .form := by
  unfold settle
  split
  · simp [Designation.infer, run]
  · cases declared <;> simp [Designation.contradicts, Inquiry.require, run]

/-- A caller who expects an image has it judged as a primary one. -/
theorem run_judgeImage_of_judgeExternal
    (h : (judgeExternal p enter .image header).run find = .ok ()) :
    (judgeImage p enter .primary header).run find = .ok () := by
  obtain ⟨designation, hdesignate, h⟩ := exists_of_run_bind h
  cases designation with
  | image => exact h
  | form =>
    obtain ⟨_, -, hdesignate⟩ := exists_of_run_bind hdesignate
    obtain ⟨subtype?, -, hsettle⟩ := exists_of_run_bind hdesignate
    exact absurd hsettle settle_image_ne_form
  | _ => cases h

/-! ## The mask -/

/-- The rule for masks finds no fault with a stream. -/
theorem run_maskRule (hage : p.refuses .v1_3 = false)
    (hget : Dict.get? header (Text.Utf8.encode "Mask") = some stored) {ids : List ObjectId}
    (hpasses : Passes find ids stored (.stream inner)) (hhops : ids.length ≤ maxHops) (c : String) :
    (Grammar.mask.check p c header).run find = .ok (some ⟨stored, .stream inner⟩) := by
  have hkey : Grammar.mask.key = "Mask" := rfl
  unfold Rule.check
  rw [hkey, hget]
  simp only [run_bind_of_run (hpasses.run_valueIfAny hhops (by simp) _ _)]
  have hcheckAge : p.checkAge ⟨c, "Mask"⟩ Grammar.mask.introduced = .ok () := by
    unfold Profile.checkAge
    rw [show Grammar.mask.introduced = .v1_3 from rfl, hage]
    rfl
  rw [hcheckAge]
  rfl

/-- A stencil is told that it has a mask. -/
theorem run_absent_mask {found : Entry}
    (h : (Grammar.mask.check p c header).run find = .ok (some found)) :
    ((Grammar.maskClause use true).check p enter c header).run find =
      .error (.constraint ⟨c, "Mask"⟩ .maskedStencil) := by
  show ((Clause.absent Grammar.mask .maskedStencil).check p enter c header).run find = _
  unfold Clause.check
  rw [run_bind_of_run h]
  rfl

/-- What the mask of an image that is no stencil is judged by. -/
def Grammar.maskSchema (use : ImageUse) : Schema :=
  if use = .explicitMask then .barred ⟨use.container, mask.key⟩ .maskedMask
  else .image .explicitMask

/-- Of any other image the mask is entered. -/
theorem run_enter_mask
    (h : (Grammar.mask.check p c header).run find = .ok (some ⟨stored, .stream inner⟩)) :
    ((Grammar.maskClause use false).check p enter c header).run find =
      (enter ⟨c, "Mask"⟩ ⟨stored, .stream inner⟩ (Grammar.maskSchema use)).run find := by
  have hclause : Grammar.maskClause use false = .enter Grammar.mask (Grammar.maskSchema use) := by
    cases use <;> rfl
  have hkind : (Grammar.maskSchema use).kind = .stream := by cases use <;> rfl
  rw [hclause]
  unfold Clause.check
  rw [run_bind_of_run h]
  simp only [hkind, Object.kind, if_true]
  rfl

/-- The fault that the mask is refused with is that of the image, if there is none before. -/
theorem run_judgeImage_of_enter
    (haccepted : (judgeImage p enter' use (unmasked header)).run find = .ok ())
    (hmask : (Grammar.mask.check p use.container header).run find =
      .ok (some ⟨stored, .stream inner⟩))
    (hplain : use = .explicitMask ∨ ¬ Yields find header "ImageMask" (.boolean true))
    (hfault : (enter ⟨use.container, "Mask"⟩ ⟨stored, .stream inner⟩ (Grammar.maskSchema use)).run
      find = .error fault) :
    (judgeImage p enter use header).run find = .error fault := by
  obtain ⟨stencil, hstencil, hexplicit, hfails⟩ := exists_stencil_of_unmasked haccepted
  have hfalse : stencil = false := by
    rcases hplain with huse | hplain
    · exact hexplicit huse
    · cases stencil with
      | false => rfl
      | true => exact absurd (hstencil.mp rfl) hplain
  subst hfalse
  exact hfails enter fault ((run_enter_mask hmask).trans hfault)

/-! ## Going deeper -/

theorem run_deeper_of_revisits {levels : Nat} {trail : Trail} {site : Site} {entry : Entry}
    {schema : Schema} (h : trail.revisits entry.stored = true) :
    (deeper p levels trail site entry schema).run find = .error (trail.stop site entry.stored) := by
  cases levels with
  | zero => rfl
  | succ levels =>
    unfold deeper
    rw [h]
    rfl

/-! ## The circle -/

namespace MaskCircle

variable {doc : Document} {hint : Hint} {a : ObjectId} {image mask : Dict} {stored back : Object}
  {maxDepth : Nat}

theorem not_refuses (h : MaskCircle doc p hint a image mask stored back) :
    p.refuses .v1_3 = false := by
  unfold Profile.refuses
  rcases h.allowed with hrelaxed | hversion
  · simp [hrelaxed]
  · simp [Profile.covers, hversion]

theorem run_check_mask (h : MaskCircle doc p hint a image mask stored back) (c : String) :
    (Grammar.mask.check p c image).run doc.get? = .ok (some ⟨stored, .stream mask⟩) := by
  obtain ⟨ids, hhops, hpasses⟩ := h.leads
  exact run_maskRule h.not_refuses h.hasMask hpasses hhops c

theorem run_check_back (h : MaskCircle doc p hint a image mask stored back) (c : String) :
    (Grammar.mask.check p c mask).run doc.get? = .ok (some ⟨back, .stream image⟩) := by
  obtain ⟨ids, hhops, hpasses⟩ := h.leadsBack
  exact run_maskRule h.not_refuses h.hasBack hpasses hhops c

/-- The image is judged as a primary one, and has been accepted without its mask. -/
theorem exists_run_unmasked (h : MaskCircle doc p hint a image mask stored back) :
    ∃ enter, (judgeImage p enter .primary (unmasked image)).run doc.get? = .ok () := by
  obtain ⟨maxDepth, haccepted⟩ := h.imageAccepted
  have hjudges : (Question.external .image).Judges doc.get? p (.stream (unmasked image)) []
      (.external .image) (.stream (unmasked image)) := .start (.direct rfl) rfl
  obtain ⟨levels, trail, -, hrun⟩ := hjudges.run haccepted
  exact ⟨_, run_judgeImage_of_judgeExternal hrun⟩

theorem judge_image (h : MaskCircle doc p hint a image mask stored back) (enter : Enter) :
    (judge p enter (.external hint) (.stream image)).run doc.get? =
      (judgeImage p enter .primary image).run doc.get? :=
  run_bind_of_run h.isImage _

/-- A way to refuse the mask of the image is a way to refuse the image. -/
theorem run_image (h : MaskCircle doc p hint a image mask stored back)
    (hplain : ¬ Yields doc.get? image "ImageMask" (.boolean true))
    (hfault : (enter ⟨"imageStream", "Mask"⟩ ⟨stored, .stream mask⟩ (.image .explicitMask)).run
      doc.get? = .error fault) :
    (judge p enter (.external hint) (.stream image)).run doc.get? = .error fault := by
  obtain ⟨_, haccepted⟩ := h.exists_run_unmasked
  rw [h.judge_image]
  exact run_judgeImage_of_enter haccepted (h.run_check_mask _) (.inr hplain) hfault

/-- And so is one to refuse the mask of its mask. -/
theorem run_mask (h : MaskCircle doc p hint a image mask stored back)
    (hfault : (enter ⟨"maskImageStream", "Mask"⟩ ⟨back, .stream image⟩
      (Grammar.maskSchema .explicitMask)).run doc.get? = .error fault) :
    (judge p enter (.image .explicitMask) (.stream mask)).run doc.get? = .error fault := by
  obtain ⟨_, _, haccepted⟩ := h.acceptedAsMask
  exact run_judgeImage_of_enter haccepted (h.run_check_back _) (.inl rfl) hfault

/-- No image holds itself: where it is its own mask, that is by reference. -/
theorem exists_reference (h : MaskCircle doc p hint a image image stored back) :
    back = stored ∧ ∃ id, stored = .reference id := by
  have heq : back = stored := Option.some.inj (h.hasBack.symm.trans h.hasMask)
  refine ⟨heq, ?_⟩
  obtain ⟨ids, -, hpasses⟩ := h.leads
  cases hpasses with
  | direct _ =>
    have hpart : Object.stream image ∈ (Object.stream image).parts :=
      Dict.mem_values_of_get? h.hasMask
    have hlt := Object.nesting_lt_of_mem_parts hpart
    omega
  | through _ _ _ => exact ⟨_, rfl⟩

/-- Two levels down the walk has come by the id that it is led back to. -/
theorem revisits_back (h : MaskCircle doc p hint a image mask stored back)
    (hback : mask = image ∨ back = .reference a) :
    ((Trail.start.push (.reference a)).push stored).revisits back = true := by
  rcases hback with rfl | rfl
  · obtain ⟨rfl, id, rfl⟩ := h.exists_reference
    simp [Trail.mem_within_push]
  · simp [Trail.mem_within_push]

theorem outcome_reference (h : MaskCircle doc p hint a image mask stored back) (maxDepth : Nat) :
    (Question.external hint).outcome doc p maxDepth none (.reference a) =
      (deeper p maxDepth .start ⟨"caller", "XObject"⟩ ⟨.reference a, .stream image⟩
        (.external hint)).run doc.get? := by
  have hpasses : Passes doc.get? [a] (.reference a) (.stream image) :=
    .through h.found (by simp) (.direct rfl)
  exact run_bind_of_run (hpasses.run_valueIfAny (show 1 ≤ maxHops by decide) (by simp) _ _) _

/-- A masked stencil is refused before its mask is looked at. -/
theorem outcome_of_stencil (h : MaskCircle doc p hint a image mask stored back)
    (hstencil : Yields doc.get? image "ImageMask" (.boolean true)) (hdepth : 0 < maxDepth) :
    (Question.external hint).outcome doc p maxDepth none (.reference a) =
      .error (.constraint ⟨"imageStream", "Mask"⟩ .maskedStencil) := by
  obtain ⟨levels, rfl⟩ : ∃ levels, maxDepth = levels + 1 := ⟨maxDepth - 1, by omega⟩
  rw [h.outcome_reference, deeper_start, h.judge_image]
  obtain ⟨_, haccepted⟩ := h.exists_run_unmasked
  obtain ⟨stencil, hiff, -, hfails⟩ := exists_stencil_of_unmasked haccepted
  rw [hiff.mpr hstencil] at hfails
  exact hfails _ _ (run_absent_mask (h.run_check_mask _))

/-- The walk is refused where the image is entered, where its mask is, or where the mask of that is:
it is out of levels, or has come by the id before. -/
theorem isEndless_outcome (h : MaskCircle doc p hint a image mask stored back)
    (hplain : ¬ Yields doc.get? image "ImageMask" (.boolean true))
    (hback : mask = image ∨ back = .reference a ∨ maxDepth ≤ 2) :
    ∃ fault, (Question.external hint).outcome doc p maxDepth none (.reference a) = .error fault ∧
      fault.IsEndless := by
  rw [h.outcome_reference]
  cases maxDepth with
  | zero => exact ⟨_, rfl, isEndless_stop _ _ _⟩
  | succ levels =>
    rw [deeper_start]
    -- the mask is stored as a reference to the image itself, or it is entered in its turn
    cases hrevisits : (Trail.start.push (.reference a)).revisits stored with
    | true => exact ⟨_, h.run_image hplain (run_deeper_of_revisits hrevisits), isEndless_stop _ _ _⟩
    | false =>
      cases levels with
      | zero => exact ⟨_, h.run_image hplain rfl, isEndless_stop _ _ _⟩
      | succ levels =>
        have hfault {fault : Fault}
            (hmask : (deeper p levels ((Trail.start.push (.reference a)).push stored)
              ⟨"maskImageStream", "Mask"⟩ ⟨back, .stream image⟩
              (Grammar.maskSchema .explicitMask)).run doc.get? = .error fault) :
            (judge p (deeper p (levels + 1) (Trail.start.push (.reference a))) (.external hint)
              (.stream image)).run doc.get? = .error fault := by
          refine h.run_image hplain ?_
          rw [deeper_of_not_revisits hrevisits]
          exact h.run_mask hmask
        cases levels with
        | zero => exact ⟨_, hfault rfl, isEndless_stop _ _ _⟩
        | succ levels =>
          have hway : mask = image ∨ back = .reference a := by
            rcases hback with heq | hback | hlimit
            · exact .inl heq
            · exact .inr hback
            · omega
          exact ⟨_, hfault (run_deeper_of_revisits (h.revisits_back hway)), isEndless_stop _ _ _⟩

end MaskCircle

/-- An image whose mask leads back to it is refused as endless at every limit, however many
references lie on the way to the mask, if the mask refers to the image by the id that was asked for,
or is the image. A limit of two levels comes first in any case. A stencil is refused as such. -/
theorem outcome_maskCircle {doc : Document} {p : Profile} {hint : Hint} {a : ObjectId}
    {image mask : Dict} {stored back : Object}
    (h : MaskCircle doc p hint a image mask stored back) :
    (Yields doc.get? image "ImageMask" (.boolean true) → ∀ maxDepth, 0 < maxDepth →
      (Question.external hint).outcome doc p maxDepth none (.reference a) =
        .error (.constraint ⟨"imageStream", "Mask"⟩ .maskedStencil)) ∧
    (¬ Yields doc.get? image "ImageMask" (.boolean true) → ∀ maxDepth,
      mask = image ∨ back = .reference a ∨ maxDepth ≤ 2 →
      ∃ site id? depth bound,
        (Question.external hint).outcome doc p maxDepth none (.reference a) =
          .error (.endless site id? depth bound)) := by
  refine ⟨fun hstencil maxDepth hdepth => h.outcome_of_stencil hstencil hdepth, ?_⟩
  intro hplain maxDepth hback
  obtain ⟨fault, houtcome, site, id?, depth, bound, rfl⟩ := h.isEndless_outcome hplain hback
  exact ⟨site, id?, depth, bound, houtcome⟩

/-! ## Circles of two images -/

/-- The header of a stencil. -/
def stencil : Dict := [
  (Text.Utf8.encode "Subtype", .name (Text.Utf8.encode "Image")),
  (Text.Utf8.encode "Width", .integer 1),
  (Text.Utf8.encode "Height", .integer 1),
  (Text.Utf8.encode "ImageMask", .boolean true)]

def maskedBy (header : Dict) (number : Nat) : Dict :=
  header ++ [(Text.Utf8.encode "Mask", .reference ⟨number, 0⟩)]

/-- Two images, and a reference to each. -/
def twoImages (first : Dict) (there back : Nat) : Document where
  header := "1.7"
  trailer := []
  objects := .ofList [
    (⟨1, 0⟩, .stream (maskedBy first there)),
    (⟨2, 0⟩, .stream (maskedBy grey back)),
    (⟨3, 0⟩, .reference ⟨1, 0⟩),
    (⟨4, 0⟩, .reference ⟨2, 0⟩)]

/-- They mask each other, with or without a reference in between. -/
theorem maskCircle_twoImages {first : Dict} {there back : Nat}
    (hfirst : first = grey ∨ first = stencil) (hthere : there = 2 ∨ there = 4)
    (hback : back = 1 ∨ back = 3) :
    MaskCircle (twoImages first there back) ⟨.v1_7, .strict⟩ .any ⟨1, 0⟩ (maskedBy first there)
      (maskedBy grey back) (.reference ⟨there, 0⟩) (.reference ⟨back, 0⟩) where
  allowed := .inr (by decide)
  found := rfl
  isImage := by rcases hfirst with rfl | rfl <;> rfl
  hasMask := by rcases hfirst with rfl | rfl <;> rfl
  leads := by
    rcases hthere with rfl | rfl
    · exact ⟨[⟨2, 0⟩], by simp, .through rfl (by simp) (.direct rfl)⟩
    · exact ⟨[⟨4, 0⟩, ⟨2, 0⟩], by simp,
        .through rfl (by simp) (.through rfl (by simp) (.direct rfl))⟩
  hasBack := rfl
  leadsBack := by
    rcases hback with rfl | rfl
    · exact ⟨[⟨1, 0⟩], by simp, .through rfl (by simp) (.direct rfl)⟩
    · exact ⟨[⟨3, 0⟩, ⟨1, 0⟩], by simp,
        .through rfl (by simp) (.through rfl (by simp) (.direct rfl))⟩
  imageAccepted := ⟨64, by rcases hfirst with rfl | rfl <;> rfl⟩
  maskAccepted := ⟨64, rfl⟩
  acceptedAsMask := ⟨64, .start, rfl⟩

/-- A reference to a reference leads from the image to its mask, and a reference back. -/
theorem outcome_maskCircle_twoImages :
    MaskCircle (twoImages grey 4 1) ⟨.v1_7, .strict⟩ .any ⟨1, 0⟩ (maskedBy grey 4)
        (maskedBy grey 1) (.reference ⟨4, 0⟩) (.reference ⟨1, 0⟩) ∧
      ∀ maxDepth, ∃ site id? depth bound,
        (Question.external .any).outcome (twoImages grey 4 1) ⟨.v1_7, .strict⟩ maxDepth none
          (.reference ⟨1, 0⟩) = .error (.endless site id? depth bound) := by
  have hcircle : MaskCircle (twoImages grey 4 1) ⟨.v1_7, .strict⟩ .any ⟨1, 0⟩ (maskedBy grey 4)
      (maskedBy grey 1) (.reference ⟨4, 0⟩) (.reference ⟨1, 0⟩) :=
    maskCircle_twoImages (.inl rfl) (.inr rfl) (.inl rfl)
  have hplain : ¬ Yields (twoImages grey 4 1).get? (maskedBy grey 4) "ImageMask"
      (.boolean true) := by
    rintro ⟨-, stored, hget, -⟩
    cases hget
  obtain ⟨-, hendless⟩ := outcome_maskCircle hcircle
  exact ⟨hcircle, fun maxDepth => hendless hplain maxDepth (.inr (.inl rfl))⟩

/-- A stencil is not refused as endless. Neither is an image whose mask refers to a reference to it:
the walk has not come by that id, and is told of the mask of a mask. -/
theorem outcome_maskCircle_not_endless :
    (MaskCircle (twoImages stencil 2 1) ⟨.v1_7, .strict⟩ .any ⟨1, 0⟩ (maskedBy stencil 2)
        (maskedBy grey 1) (.reference ⟨2, 0⟩) (.reference ⟨1, 0⟩) ∧
      (Question.external .any).outcome (twoImages stencil 2 1) ⟨.v1_7, .strict⟩ 64 none
        (.reference ⟨1, 0⟩) = .error (.constraint ⟨"imageStream", "Mask"⟩ .maskedStencil)) ∧
    (MaskCircle (twoImages grey 2 3) ⟨.v1_7, .strict⟩ .any ⟨1, 0⟩ (maskedBy grey 2)
        (maskedBy grey 3) (.reference ⟨2, 0⟩) (.reference ⟨3, 0⟩) ∧
      (Question.external .any).outcome (twoImages grey 2 3) ⟨.v1_7, .strict⟩ 64 none
        (.reference ⟨1, 0⟩) = .error (.constraint ⟨"maskImageStream", "Mask"⟩ .maskedMask)) := by
  refine ⟨⟨?_, rfl⟩, ⟨?_, rfl⟩⟩
  · exact maskCircle_twoImages (.inr rfl) (.inl rfl) (.inl rfl)
  · exact maskCircle_twoImages (.inl rfl) (.inl rfl) (.inr rfl)

end PdfConformance

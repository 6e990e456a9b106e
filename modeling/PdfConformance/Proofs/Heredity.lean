import PdfConformance.Proofs.Cancellation
import PdfConformance.Proofs.Judgement.Covering

/-! # Acceptance is hereditary

What an accepted object holds is accepted on its own, under the same settings: the resources of a
form, the objects that resources name, and the masks of an image. On its own a value is judged on a
shorter trail and with more levels to go, and a mask as a primary image; none of it can make a fault
of what has been accepted. A reference that leads nowhere holds nothing: an image may have one for
its soft mask, but to judge it alone is a fault. -/

namespace PdfConformance

open Inquiry

variable {find : ObjectId → Option Object} {p : Profile} {hint : Hint} {maxDepth : Nat}
  {object stored value : Object} {inner : Dict}

/-- An entry is judged the same by a caller as within a walk. -/
theorem deeper_covers_start {levels : Nat} (hle : levels ≤ maxDepth) (trail : Trail)
    (site site' : Site) (entry : Entry) {schema : Schema}
    (htimely : ∀ rule ∈ schema.rules, rule.isTimely = true) :
    Covers find Eq (deeper p levels trail site entry schema)
      (deeper p maxDepth .start site' entry schema) := by
  have hagree : AgreeUpTo (fun _ => True) Eq (deeper p levels trail site entry schema)
      (deeper p maxDepth .start site' entry schema) :=
    agree_deeper_of_subset p hle (List.nil_subset _) (fun _ _ _ _ => trivial) site site' entry
      htimely
  exact hagree.covers

/-- A mask is judged as a primary image by a caller. The level at which it was entered is left to
its alternates, which are empty and stored elsewhere than the mask itself. -/
theorem deeper_image_covers_start {use : ImageUse} (huse : use = .softMask ∨ use = .explicitMask)
    {levels : Nat} (hlt : levels < maxDepth) (trail : Trail) (site site' : Site)
    (hstands : Stands find stored (.stream inner)) :
    Covers find Eq (deeper p levels trail site ⟨stored, .stream inner⟩ (.image use))
      (deeper p maxDepth .start site' ⟨stored, .stream inner⟩ (.external .image)) := by
  refine deeper_covers fun less hless => ?_
  obtain ⟨more, rfl⟩ : ∃ n, maxDepth = n + 1 + 1 := ⟨maxDepth - 2, by omega⟩
  rw [deeper_start]
  have he : Enter.AgreeUpTo (fun _ => True) (deeper p less (trail.push stored))
      (deeper p (more + 1) (Trail.start.push stored)) :=
    .of_subset p (by omega) (Trail.push_subset (List.nil_subset _) stored) fun _ _ _ _ => trivial
  refine judgeImage_covers_judgeExternal huse he ?_ ?_
  · intro site alternates hempty
    have hrevisits : (Trail.start.push stored).revisits alternates = false := by
      cases alternates with
      | reference id =>
        have hnot : id ∉ (Trail.start.push stored).within := by
          intro hid
          rcases Trail.mem_within_push.mp hid with rfl | hid
          · cases hstands.unique hempty
          · cases hid
        simpa using hnot
      | _ => rfl
    rw [deeper_of_not_revisits hrevisits]
    rfl
  · intro site entry site' reason hkind
    obtain ⟨header, hvalue⟩ := Object.eq_stream_of_kind hkind
    cases less with
    | zero => exact ⟨_, rfl⟩
    | succ less =>
      rw [deeper]
      split
      · exact ⟨_, rfl⟩
      · rw [hvalue]
        exact ⟨_, rfl⟩

/-- An external object that is accepted is accepted as what it stands for. -/
theorem externalObject_covers {y : Inquiry Unit} (hstands : Stands find object (.stream inner))
    (h : ∀ less, maxDepth = less + 1 → Covers find Eq
      (judgeExternal p (deeper p less (Trail.start.push object)) hint inner) y) :
    Covers find Eq (externalObject p maxDepth hint object) y := by
  refine .bind_left fun value? hrun => ?_
  cases valueIfAny_of_run hstands (by simp) hrun
  exact deeper_covers h

theorem resourceDictionary_covers {y : Inquiry Unit}
    (hstands : Stands find object (.dictionary inner))
    (h : ∀ less, maxDepth = less + 1 → Covers find Eq
      (Grammar.resources.check p (deeper p less (Trail.start.push object)) inner) y) :
    Covers find Eq (resourceDictionary p maxDepth object) y := by
  refine .bind_left fun value hrun => ?_
  rw [valueOf_of_run hstands hrun]
  exact deeper_covers h

/-- A null that is given as it is has nothing to judge. -/
theorem externalObject_covered_of_null {x : Inquiry Unit} (h : Stands find stored .null) :
    Covers find Eq x (externalObject p maxDepth hint stored) := by
  rw [h.eq_null]
  exact .done_right fun _ => rfl

theorem judgeMember_stream_of_run {enter : Enter} {member : Bytes × Object} {u : Unit}
    (hrun : (judgeMember enter member).run find = .ok u) (hstands : Stands find member.2 value)
    (hnull : value ≠ .null) : ∃ header, value = .stream header := by
  obtain ⟨value?, hvalue, hrun⟩ := exists_of_run_bind hrun
  cases valueIfAny_of_run hstands hnull hvalue
  cases value with
  | stream header => exact ⟨header, rfl⟩
  | null => exact absurd rfl hnull
  | _ => cases hrun

/-- An image that is accepted is judged by the sheet of a primary image. -/
theorem externalImage_covers {y : Inquiry Unit} (hstands : Stands find object (.stream inner))
    (himage : (designate p hint inner).run find = .ok .image)
    (h : ∀ less stencil, maxDepth = less + 1 → Covers find Eq
      ((Grammar.image .primary stencil).check p (deeper p less (Trail.start.push object)) inner)
      y) :
    Covers find Eq (externalObject p maxDepth hint object) y := by
  refine externalObject_covers hstands fun less hless => ?_
  refine .bind_left fun designation hrun => ?_
  cases himage.symm.trans hrun
  exact .bind_left fun _ _ => .bind_left fun mask? _ => h less _ hless

namespace Question

/-- What is judged in the course of a judgement, with the question it is judged by on its own. -/
inductive Includes (find : ObjectId → Option Object) (p : Profile) :
    Question × Object → Question × Object → Prop
  /-- The resources of a form. -/
  | resources {hint : Hint} {object stored value : Object} {header : Dict} :
      Stands find object (.stream header) → (designate p hint header).run find = .ok .form →
      Dict.get? header (Text.Utf8.encode "Resources") = some stored →
      Stands find stored value → value ≠ .null →
      Includes find p (.external hint, object) (.resources, stored)
  /-- An external object that resources name. -/
  | member {object stored value : Object} {resources members : Dict} {member : Bytes × Object} :
      Stands find object (.dictionary resources) →
      Dict.get? resources (Text.Utf8.encode "XObject") = some stored →
      Stands find stored (.dictionary members) → member ∈ members → Stands find member.2 value →
      Includes find p (.resources, object) (.external .any, member.2)
  /-- The soft mask of an image. -/
  | softMask {hint : Hint} {object stored value : Object} {header : Dict} :
      Stands find object (.stream header) → (designate p hint header).run find = .ok .image →
      Dict.get? header (Text.Utf8.encode "SMask") = some stored → Stands find stored value →
      Includes find p (.external hint, object) (.external .image, stored)
  /-- The mask of an image, if it is an image itself. -/
  | mask {hint : Hint} {object stored : Object} {header inner : Dict} :
      Stands find object (.stream header) → (designate p hint header).run find = .ok .image →
      Dict.get? header (Text.Utf8.encode "Mask") = some stored →
      Stands find stored (.stream inner) →
      Includes find p (.external hint, object) (.external .image, stored)

/-- What is included in a judgement is judged by itself with no more look-ups. -/
theorem Includes.covers {whole part : Question × Object} (h : Includes find p whole part)
    (maxDepth : Nat) :
    Covers find Eq (whole.1.inquiry p maxDepth whole.2) (part.1.inquiry p maxDepth part.2) := by
  cases h with
  | @resources hint object stored value header hobject hform hget hstands hnull =>
    have hclause : .enter (Rule.optional "Resources" .dictionary |> Rule.since .v1_2) .resources ∈
        Grammar.form.clauses := by simp [Grammar.form]
    refine externalObject_covers hobject fun less hless => ?_
    refine .bind_left fun designation hrun => ?_
    cases hform.symm.trans hrun
    refine Sheet.check_covers hclause (.of_run fun _ hrun => ?_)
    have hadmits := Clause.admits_of_run_enter hrun hget hstands hnull
    obtain ⟨entries, rfl⟩ := Object.eq_dictionary_of_kind (of_decide_eq_true hadmits)
    refine Clause.enter_covers_resourceDictionary hget hstands rfl fun site => ?_
    exact deeper_covers_start (by omega) _ _ _ _ (by simp [Schema.rules])
  | @member object stored value resources members member hobject hget hmembers hmember hstands =>
    have hclause : .enter (Rule.optional "XObject" .dictionary) .externals ∈
        Grammar.resources.clauses := by simp [Grammar.resources]
    refine resourceDictionary_covers hobject fun less hless => ?_
    refine Sheet.check_covers hclause (.bind_left fun found? hrun => ?_)
    cases Rule.eq_of_run hrun hget hmembers (by simp)
    refine deeper_covers fun less' hless' => .forM_left hmember ?_
    by_cases hnull : value = .null
    · exact externalObject_covered_of_null (hnull ▸ hstands)
    · refine .of_run fun _ hrun => ?_
      obtain ⟨entries, rfl⟩ := judgeMember_stream_of_run hrun hstands hnull
      refine judgeMember_covers hstands fun site site' => ?_
      exact deeper_covers_start (by omega) _ _ _ _ (by simp [Schema.rules])
  | @softMask hint object stored value header hobject himage hget hstands =>
    refine externalImage_covers hobject himage fun less stencil hless => ?_
    have hclause : .enter (Rule.optional "SMask" .stream |> Rule.since .v1_4) (.image .softMask) ∈
        (Grammar.image .primary stencil).clauses := by simp [Grammar.image]
    refine Sheet.check_covers hclause ?_
    by_cases hnull : value = .null
    · exact externalObject_covered_of_null (hnull ▸ hstands)
    · refine .of_run fun _ hrun => ?_
      have hadmits := Clause.admits_of_run_enter hrun hget hstands hnull
      obtain ⟨entries, rfl⟩ := Object.eq_stream_of_kind (of_decide_eq_true hadmits)
      refine Clause.enter_covers_externalObject hget hstands rfl fun site => ?_
      exact deeper_image_covers_start (.inl rfl) (by omega) _ _ _ hstands
  | @mask hint object stored header inner hobject himage hget hstands =>
    refine externalImage_covers hobject himage fun less stencil hless => ?_
    have hclause : Grammar.maskClause .primary stencil ∈
        (Grammar.image .primary stencil).clauses := by simp [Grammar.image]
    refine Sheet.check_covers hclause ?_
    cases stencil with
    | true =>
      -- a stencil has no mask
      refine .bind_left fun found? hrun => ?_
      cases Rule.eq_of_run hrun hget hstands (by simp)
      exact .of_error rfl _
    | false =>
      refine Clause.enter_covers_externalObject hget hstands rfl fun site => ?_
      exact deeper_image_covers_start (.inr rfl) (by omega) _ _ _ hstands

end Question

/-- A verdict of acceptance is handed down by an inquiry to those that it covers, whenever the
caller's patience ends. -/
theorem Inquiry.Covers.verdict_ok {t : Terms} {x y : Inquiry Unit} (hcovers : Covers t.find Eq x y)
    (hx : Orderly t (fun _ => True) x) (hy : Orderly t (fun _ => True) y) {patience? : Option Nat}
    (hok : x.verdict t.find patience? = .ok ()) : y.verdict t.find patience? = .ok () := by
  cases patience? with
  | none =>
    obtain ⟨_, -, hrun, -⟩ := hcovers () hok
    exact hrun
  | some patience =>
    change x.runWithin t.find patience = .ok () at hok
    change y.runWithin t.find patience = .ok ()
    have hchances : x.chances t.find ≤ patience := by
      refine Nat.le_of_not_lt fun hlt => ?_
      rw [(hx.runWithin_of_lt hlt).1] at hok
      cases hok
    rw [hx.runWithin_of_le hchances] at hok
    obtain ⟨_, -, hrun, hasked⟩ := hcovers () hok
    have hchances' : y.chances t.find ≤ patience := by
      have hlength := hasked.length_le
      simp only [chances, hok, hrun, endsAtHops] at hchances ⊢
      omega
    rw [hy.runWithin_of_le hchances', hrun]

/-- What is included in an accepted object, at whatever remove, is accepted on its own. -/
theorem outcome_included {doc : Document} {p : Profile} {whole part : Question × Object}
    (h : Relation.ReflTransGen (Question.Includes doc.get? p) whole part) {maxDepth : Nat}
    {patience? : Option Nat} (hok : whole.1.outcome doc p maxDepth patience? whole.2 = .ok ()) :
    part.1.outcome doc p maxDepth patience? part.2 = .ok () := by
  have orderly (asked : Question × Object) : Orderly (openTerms doc.get?) (fun _ => True)
      (asked.1.inquiry p maxDepth asked.2) :=
    asked.1.orderly (fun _ _ => trivial) (openInvariant doc.get?) trivial trivial
  induction h with
  | refl => exact hok
  | @tail between part _ hincludes ih =>
    have hcovers : Covers (openTerms doc.get?).find Eq (between.1.inquiry p maxDepth between.2)
        (part.1.inquiry p maxDepth part.2) := hincludes.covers maxDepth
    exact hcovers.verdict_ok (orderly between) (orderly part) ih

/-- A form with resources, the image they name and its soft mask, each an indirect object. -/
def layered : Document where
  header := "1.7"
  trailer := []
  objects := .ofList [
    (⟨1, 0⟩, .stream [
      (Text.Utf8.encode "Subtype", .name (Text.Utf8.encode "Form")),
      (Text.Utf8.encode "BBox", .array [.integer 0, .integer 0, .integer 1, .integer 1]),
      (Text.Utf8.encode "Resources", .reference ⟨2, 0⟩)]),
    (⟨2, 0⟩, .dictionary [
      (Text.Utf8.encode "XObject", .dictionary [(Text.Utf8.encode "I", .reference ⟨3, 0⟩)])]),
    (⟨3, 0⟩, .stream (grey ++ [(Text.Utf8.encode "SMask", .reference ⟨4, 0⟩)])),
    (⟨4, 0⟩, .stream (grey ++ [(Text.Utf8.encode "Alternates", .array [])]))]
where
  grey : Dict := [
    (Text.Utf8.encode "Subtype", .name (Text.Utf8.encode "Image")),
    (Text.Utf8.encode "Width", .integer 1),
    (Text.Utf8.encode "Height", .integer 1),
    (Text.Utf8.encode "ColorSpace", .name (Text.Utf8.encode "DeviceGray")),
    (Text.Utf8.encode "BitsPerComponent", .integer 8)]

theorem outcome_included_layered :
    (Question.external .form).outcome layered ⟨.v1_7, .strict⟩ 5 none (.reference ⟨1, 0⟩) =
        .ok () ∧
      (Question.external .image).outcome layered ⟨.v1_7, .strict⟩ 5 none (.reference ⟨4, 0⟩) =
        .ok () := by
  have hform : (Question.external .form).outcome layered ⟨.v1_7, .strict⟩ 5 none
      (.reference ⟨1, 0⟩) = .ok () := by rfl
  have stands {id : ObjectId} {stored : Object} (hfind : layered.get? id = some stored)
      (hdirect : stored.reference? = none) (hnull : stored ≠ .null) :
      Stands layered.get? (.reference id) stored := .through hfind hnull (.direct hdirect)
  have hresources : Question.Includes layered.get? ⟨.v1_7, .strict⟩
      (.external .form, .reference ⟨1, 0⟩) (.resources, .reference ⟨2, 0⟩) :=
    .resources (stands rfl rfl (by simp)) rfl rfl (stands rfl rfl (by simp)) (by simp)
  have hnamed : (Text.Utf8.encode "I", Object.reference ⟨3, 0⟩) ∈
      [(Text.Utf8.encode "I", Object.reference ⟨3, 0⟩)] := List.mem_singleton.mpr rfl
  have hmember : Question.Includes layered.get? ⟨.v1_7, .strict⟩
      (.resources, .reference ⟨2, 0⟩) (.external .any, .reference ⟨3, 0⟩) :=
    .member (stands rfl rfl (by simp)) rfl (.direct rfl) hnamed (stands rfl rfl (by simp))
  have hmask : Question.Includes layered.get? ⟨.v1_7, .strict⟩
      (.external .any, .reference ⟨3, 0⟩) (.external .image, .reference ⟨4, 0⟩) :=
    .softMask (stands rfl rfl (by simp)) rfl rfl (stands rfl rfl (by simp))
  exact ⟨hform, outcome_included (((Relation.ReflTransGen.single hresources).tail hmember).tail
    hmask) hform⟩

/-- An image whose soft mask is not stored. -/
def missingMask : Document where
  header := "1.7"
  trailer := []
  objects := .ofList [(⟨1, 0⟩, .stream image)]
where
  image : Dict := layered.grey ++ [(Text.Utf8.encode "SMask", .reference ⟨9, 0⟩)]

/-- The image is accepted, but the reference in the place of its soft mask is not. -/
theorem outcome_missingMask :
    Stands missingMask.get? (.reference ⟨1, 0⟩) (.stream missingMask.image) ∧
      (designate ⟨.v1_7, .relaxed⟩ .any missingMask.image).run missingMask.get? = .ok .image ∧
      (Question.external .any).outcome missingMask ⟨.v1_7, .relaxed⟩ 64 none (.reference ⟨1, 0⟩) =
        .ok () ∧
      Dict.get? missingMask.image (Text.Utf8.encode "SMask") = some (.reference ⟨9, 0⟩) ∧
      (Question.external .image).outcome missingMask ⟨.v1_7, .relaxed⟩ 64 none
        (.reference ⟨9, 0⟩) = .error (.dangling ⟨"caller", "XObject"⟩ ⟨9, 0⟩) :=
  ⟨.through rfl (by simp) (.direct rfl), rfl, rfl, rfl, rfl⟩

end PdfConformance

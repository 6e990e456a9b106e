import Mathlib.Data.Nat.Find
import PdfConformance.Proofs.Circles

/-! # The limit on the depth only cuts a walk short

Walks with different limits take the same steps until the smaller limit is reached, and a walk that
is ended by its limit says so: it gives the limit as its depth. An object that is accepted under
some limit therefore has a least depth that suffices, and under every smaller one the limit is what
is reported. -/

namespace PdfConformance

open Inquiry

/-- The verdict of a walk that was ended by this limit on its depth. -/
def CutShort (maxDepth : Nat) (verdict : Except Fault Unit) : Prop :=
  ∃ site id?, verdict = .error (.endless site id? maxDepth .depth)

variable {question : Question} {doc : Document} {p : Profile} {patience? : Option Nat}
  {object : Object}

/-- A greater limit leads to the same verdict, unless the smaller one cut the walk short. -/
theorem outcome_eq_or_cutShort {maxDepth maxDepth' : Nat} (hle : maxDepth ≤ maxDepth') :
    question.outcome doc p maxDepth' patience? object =
        question.outcome doc p maxDepth patience? object ∨
      CutShort maxDepth (question.outcome doc p maxDepth patience? object) := by
  have he : Enter.AgreeUpTo (fun fault => ∃ site id? depth, fault = .endless site id? depth .depth)
      (deeper p maxDepth .start) (deeper p maxDepth' .start) :=
    .of_levels_le p hle (fun site id? depth => ⟨site, id?, depth, rfl⟩) .start
  rcases (question.agree_of_enter he object).verdict_eq doc.get? patience? with heq | hcut
  · exact .inl heq
  · obtain ⟨fault, hverdict, site, id?, depth, rfl⟩ := hcut
    -- the depth at which a walk is ended is its limit
    have hdepth : depth = maxDepth := endlessFor_of_outcome hverdict
    subst hdepth
    exact .inr ⟨site, id?, hverdict⟩

/-- A limit under which the verdict is not that of a greater one has cut the walk short. -/
theorem cutShort_of_lt_of_ne {maxDepth maxDepth' : Nat} (hlt : maxDepth < maxDepth')
    (hne : question.outcome doc p maxDepth' patience? object ≠
      question.outcome doc p maxDepth patience? object) :
    CutShort maxDepth (question.outcome doc p maxDepth patience? object) :=
  (outcome_eq_or_cutShort (Nat.le_of_lt hlt)).resolve_left hne

/-- Beyond a limit that does not cut the walk short the verdict stays as it is. Where some limit
suffices for the object to be accepted there is a least one, and all below it cut the walk short. -/
theorem outcome_maxDepth (question : Question) (doc : Document) (p : Profile)
    (patience? : Option Nat) (object : Object) :
    (∀ maxDepth maxDepth', maxDepth ≤ maxDepth' →
      (∀ site id? bound, question.outcome doc p maxDepth patience? object ≠
        .error (.endless site id? maxDepth bound)) →
      question.outcome doc p maxDepth' patience? object =
        question.outcome doc p maxDepth patience? object) ∧
    (∀ enough, question.outcome doc p enough patience? object = .ok () →
      ∃ threshold, ∀ maxDepth,
        (question.outcome doc p maxDepth patience? object = .ok () ↔ threshold ≤ maxDepth) ∧
        (maxDepth < threshold →
          CutShort maxDepth (question.outcome doc p maxDepth patience? object))) := by
  constructor
  · intro maxDepth maxDepth' hle hnot
    rcases outcome_eq_or_cutShort hle with heq | ⟨site, id?, hcut⟩
    · exact heq
    · exact absurd hcut (hnot site id? .depth)
  · intro enough henough
    have hex : ∃ limit, question.outcome doc p limit patience? object = .ok () := ⟨enough, henough⟩
    classical
    have hleast := Nat.find_spec hex
    have hbelow (maxDepth : Nat) (hlt : maxDepth < Nat.find hex) :
        CutShort maxDepth (question.outcome doc p maxDepth patience? object) := by
      refine cutShort_of_lt_of_ne hlt fun heq => ?_
      exact Nat.find_min hex hlt (heq.symm.trans hleast)
    refine ⟨Nat.find hex, fun maxDepth => ⟨⟨fun hok => Nat.find_min' hex hok, fun hle => ?_⟩,
      hbelow maxDepth⟩⟩
    rcases outcome_eq_or_cutShort hle with heq | ⟨site, id?, hcut⟩
    · exact heq.trans hleast
    · rw [hleast] at hcut
      cases hcut

/-- An image with an image as its soft mask, each a stencil of one sample. -/
def softMasked : Object :=
  let entries : Dict := [
    (Text.Utf8.encode "Subtype", .name (Text.Utf8.encode "Image")),
    (Text.Utf8.encode "Width", .integer 1),
    (Text.Utf8.encode "Height", .integer 1),
    (Text.Utf8.encode "ImageMask", .boolean true)]
  .stream (entries ++ [(Text.Utf8.encode "SMask", .stream entries)])

/-- The image and its mask take two levels. -/
theorem outcome_maxDepth_softMasked :
    (Question.external .any).outcome ⟨"1.7", [], .empty⟩ ⟨.v1_7, .strict⟩ 1 none softMasked =
        .error (.endless ⟨"imageStream", "SMask"⟩ none 1 .depth) ∧
      ∀ maxDepth, (Question.external .any).outcome ⟨"1.7", [], .empty⟩ ⟨.v1_7, .strict⟩ maxDepth
        none softMasked = .ok () ↔ 2 ≤ maxDepth := by
  have hone : (Question.external .any).outcome ⟨"1.7", [], .empty⟩ ⟨.v1_7, .strict⟩ 1 none
      softMasked = .error (.endless ⟨"imageStream", "SMask"⟩ none 1 .depth) := by rfl
  have htwo : (Question.external .any).outcome ⟨"1.7", [], .empty⟩ ⟨.v1_7, .strict⟩ 2 none
      softMasked = .ok () := by rfl
  obtain ⟨threshold, hthreshold⟩ := (outcome_maxDepth (.external .any) ⟨"1.7", [], .empty⟩
    ⟨.v1_7, .strict⟩ none softMasked).2 2 htwo
  have hle : threshold ≤ 2 := (hthreshold 2).1.mp htwo
  have hlt : 1 < threshold := by
    by_contra hnot
    have hok := (hthreshold 1).1.mpr (Nat.le_of_not_lt hnot)
    rw [hone] at hok
    cases hok
  have heq : threshold = 2 := by omega
  subst heq
  exact ⟨hone, fun maxDepth => (hthreshold maxDepth).1⟩

end PdfConformance

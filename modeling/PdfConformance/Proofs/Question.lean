import PdfConformance.Document
import PdfConformance.Proofs.Judgement.Agreement
import PdfConformance.Proofs.Judgement.Likeness
import PdfConformance.Proofs.Judgement.Order

/-! # What callers ask

A `Question` is one of the two judgements a caller can ask for, and its `outcome` the verdict in a
document. -/

namespace PdfConformance

open Inquiry

inductive Question where
  | external (hint : Hint)
  | resources
  deriving DecidableEq, Repr

namespace Question

def inquiry (p : Profile) (maxDepth : Nat) (object : Object) : Question → Inquiry Unit
  | external hint => externalObject p maxDepth hint object
  | resources => resourceDictionary p maxDepth object

/-- The verdict for a caller whose patience may end after some look-ups. -/
def outcome (question : Question) (doc : Document) (p : Profile) (maxDepth : Nat)
    (patience? : Option Nat) (object : Object) : Except Fault Unit :=
  (question.inquiry p maxDepth object).verdict doc.get? patience?

theorem agree_of_enter {excused : Fault → Prop} {p q : Profile} {maxDepth maxDepth' : Nat}
    (he : Enter.AgreeUpTo excused (deeper p maxDepth .start) (deeper q maxDepth' .start))
    (object : Object) (question : Question) :
    AgreeUpTo excused Eq (question.inquiry p maxDepth object)
      (question.inquiry q maxDepth' object) := by
  cases question with
  | external hint =>
    refine (AgreeUpTo.refl _).bind_eq fun value? => ?_
    rcases value? with _ | value
    · exact .refl _
    · cases value with
      | stream header => exact he _ (.refl _) (by simp [Schema.rules])
      | _ => exact .refl _
  | resources =>
    refine (AgreeUpTo.refl _).bind_eq fun value => ?_
    cases value with
    | dictionary entries => exact he _ (.refl _) (by simp [Schema.rules])
    | _ => exact .refl _

/-- What is judged is judged by this schema first. -/
def schema : Question → Schema
  | external hint => .external hint
  | resources => .resources

/-- The values a walk comes to, the schema each is judged by, and the way to it: the places it is
stored in, innermost first. -/
inductive Judges (find : ObjectId → Option Object) (p : Profile) (question : Question)
    (object : Object) : List Slot → Schema → Object → Prop
  | start {value : Object} : Stands find object value → value.kind = question.schema.kind →
      Judges find p question object [] question.schema value
  | step {path : List Slot} {schema inner : Schema} {value part : Object} {slot : Slot} :
      Judges find p question object path schema value →
      schema.Leads find p value slot inner part →
      Judges find p question object (slot :: path) inner part

/-- A walk that ends well has judged all that it comes to, on each level of the way. -/
theorem Judges.run {find : ObjectId → Option Object} {p : Profile} {maxDepth : Nat}
    {question : Question} {object value : Object} {path : List Slot} {schema : Schema}
    (h : question.Judges find p object path schema value)
    (hrun : (question.inquiry p maxDepth object).run find = .ok ()) :
    ∃ levels trail, path.length + levels + 1 = maxDepth ∧
      (judge p (deeper p levels trail) schema value).run find = .ok () := by
  induction h with
  | @start value hstands hkind =>
    have entered {site : Site}
        (hrun : (deeper p maxDepth .start site ⟨object, value⟩ question.schema).run find =
          .ok ()) : ∃ levels trail, 0 + levels + 1 = maxDepth ∧
            (judge p (deeper p levels trail) question.schema value).run find = .ok () := by
      obtain ⟨levels, rfl, hjudge⟩ := run_of_deeper hrun
      exact ⟨levels, _, by rw [Nat.zero_add], hjudge⟩
    cases question with
    | external hint =>
      obtain ⟨header, rfl⟩ := Object.eq_stream_of_kind hkind
      obtain ⟨value?, hvalue, hrun⟩ := exists_of_run_bind hrun
      cases valueIfAny_of_run hstands (by simp) hvalue
      exact entered hrun
    | resources =>
      obtain ⟨entries, rfl⟩ := Object.eq_dictionary_of_kind hkind
      obtain ⟨value, hvalue, hrun⟩ := exists_of_run_bind hrun
      cases valueOf_of_run hstands hvalue
      exact entered hrun
  | step _ hleads ih =>
    obtain ⟨levels, trail, hlevels, hjudge⟩ := ih
    obtain ⟨less, trail', rfl, hinner⟩ := hleads.run_deeper hjudge
    refine ⟨less, _, ?_, hinner⟩
    rw [List.length_cons]
    omega

/-- What two documents have judged is mirrored, if the walks may come to the values that the two
objects stand for. -/
theorem mirrors_along {l : Likeness} {p : Profile} (hl : l.Coherent) (t : l.Trails) (g : l.Guide p)
    (maxDepth : Nat) {object object' : Object} (h : l.alike object object') (question : Question)
    (hmeets : ∀ value value', Stands l.find object value → Stands l.find' object' value' →
      value.kind = question.schema.kind → value'.kind = question.schema.kind →
      g.meets question.schema value value') :
    l.Mirrors Eq (question.inquiry p maxDepth object) (question.inquiry p maxDepth object') := by
  have he := hl.deeper t g maxDepth t.start
  cases question with
  | external hint =>
    apply (hl.valueIfAny _ true h).bind_run
    intro value? value?' hrun hrun' hvalue?
    cases hvalue? with
    | none => exact .done rfl
    | some hvalue =>
      obtain ⟨hstands, -⟩ := stands_of_run_valueIfAny hrun
      obtain ⟨hstands', -⟩ := stands_of_run_valueIfAny hrun'
      cases hvalue with
      | stream hentries hfilters =>
        exact he _ ⟨h, .stream hentries hfilters⟩ (by simp [Schema.rules])
          (hmeets _ _ hstands hstands' rfl rfl)
      | _ => exact hl.fail _ rfl
  | resources =>
    apply (hl.valueOf _ h).bind_run
    intro value value' hrun hrun' hvalue
    have hstands := stands_of_run_valueOf hrun
    have hstands' := stands_of_run_valueOf hrun'
    cases hvalue with
    | dictionary hentries =>
      exact he _ ⟨h, .dictionary hentries⟩ (by simp [Schema.rules])
        (hmeets _ _ hstands hstands' rfl rfl)
    | _ => exact hl.fail _ rfl

theorem mirrors {l : Likeness} (hl : l.Faithful) (t : l.Trails) (p : Profile) (maxDepth : Nat)
    {object object' : Object} (h : l.alike object object') (question : Question) :
    l.Verdicts Eq ((question.inquiry p maxDepth object).run l.find)
      ((question.inquiry p maxDepth object').run l.find') := by
  have hmirrors := question.mirrors_along hl.toCoherent t (hl.guide p) maxDepth h
    fun _ _ _ _ _ _ => trivial
  exact hmirrors.verdicts

theorem orderly {t : Terms} {p : Profile} {maxDepth : Nat} {object : Object} (ht : t.Admits p)
    (inv : t.Invariant) (hheld : t.held object) (hinv : inv.holds maxDepth .start object)
    (question : Question) :
    Orderly t (fun _ => True) (question.inquiry p maxDepth object) := by
  have he : (deeper p maxDepth .start).OrderlyOn t [object] :=
    deeper_orderly ht inv fun part hpart => by
      rw [List.mem_singleton.mp hpart]
      exact ⟨hheld, hinv⟩
  have hobject : object ∈ [object] := List.mem_singleton.mpr rfl
  cases question with
  | external hint =>
    refine (Orderly.valueIfAny ht _ true hheld).bind fun value? hvalue => ?_
    cases value? with
    | none => exact .done trivial
    | some value =>
      cases value with
      | stream header => exact he _ _ _ hobject hvalue List.not_mem_nil
      | _ => exact unexpected_orderly ht _ _ hvalue.reference?_eq_none
  | resources =>
    refine (Orderly.valueOf ht _ hheld).bind fun value hstands => ?_
    cases value with
    | dictionary entries => exact he _ _ _ hobject hstands List.not_mem_nil
    | _ => exact unexpected_orderly ht _ _ hstands.reference?_eq_none

theorem orderly_open (find : ObjectId → Option Object) (p : Profile) (maxDepth : Nat)
    (object : Object) (question : Question) :
    Orderly (openTerms find) (fun _ => True) (question.inquiry p maxDepth object) :=
  question.orderly (fun _ _ => trivial) (openInvariant find) trivial trivial

end Question

end PdfConformance

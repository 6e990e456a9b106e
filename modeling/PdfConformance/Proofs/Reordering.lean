import PdfConformance.Proofs.Cancellation
import PdfConformance.Proofs.Object.Reordering

/-! # The order of entries

`outcome_reordered`: whether an object is accepted does not depend on the order of entries in
dictionaries and headers, and neither does the verdict where the collections keep theirs: the
external objects that resources name, and what applications keep with a form. Members of a
collection are judged independently of one another, so that in another order they are accepted or
not as before; but the first that is at fault may be another one. -/

namespace PdfConformance

open Inquiry

variable {find find' : ObjectId → Option Object} {fault : Fault → Fault → Prop} {paced : Prop}

/-- Documents in which the same is stored under every id, but for the order of entries. -/
def reorderingLikeness (find find' : ObjectId → Option Object) (fault : Fault → Fault → Prop)
    (paced : Prop) : Likeness where
  find
  find'
  alike := Object.Reordered
  arranged := Dict.Rearranged
  fault
  excused := fun _ => False
  paced
  unexcused := fun _ _ => id

theorem Object.Reordered.values {object object' : Object} (h : Object.Reordered object object')
    (hdirect : object.reference? = none) :
    (reorderingLikeness find find' fault paced).Values object object' := by
  cases h with
  | refl _ =>
    cases object with
    | reference id => cases hdirect
    | array items => exact .array (List.forall₂_same.mpr fun item _ => .refl item)
    | dictionary entries => exact .dictionary (.inl rfl)
    | stream header => exact .stream (.inl rfl) fun _ => rfl
    | null => exact .null
    | boolean _ => exact .boolean
    | integer _ => exact .integer
    | real _ => exact .real
    | name _ => exact .name
    | string _ _ => exact .string
  | array hitems => exact .array hitems
  | dictionary hkeys hsame hvalues hperm =>
    exact .dictionary (.inr ⟨hkeys, _, .of_values hsame hvalues, hperm⟩)
  | stream hkeys hsame hvalues hperm =>
    have harranged : Dict.Rearranged _ _ := .inr ⟨hkeys, _, .of_values hsame hvalues, hperm⟩
    exact .stream harranged harranged.sameFilters

theorem reorderingLikeness_coherent
    (hfind : ∀ id, Option.Rel Object.Reordered (find id) (find' id))
    (hfault : ∀ cause, fault cause cause) :
    (reorderingLikeness find find' fault paced).Coherent where
  fault_refl := fun cause _ => hfault cause
  get? := fun h => h.get?
  length_eq := fun h => h.length_eq
  target := by
    have hchained : (reorderingLikeness find find' fault paced).Chained (fun id => id)
        Object.Reordered := {
      injective := fun _ _ heq => heq
      values := Object.Reordered.values
      reference := by
        intro via stored' h
        cases h
        exact ⟨rfl, hfind via⟩
      dangling := fun _ _ => hfault _
      endless := fun _ _ _ => hfault _ }
    intro stored stored' h
    exact hchained.follow h [] maxHops

/-- The same trails. -/
def reorderingTrails (hfault : ∀ cause, fault cause cause) :
    (reorderingLikeness find find' fault paced).Trails where
  alike := fun trail trail' => trail' = trail
  start := rfl
  stop := by
    rintro trail _ stored stored' rfl h
    have hsame := h.reference?_eq
    refine .inr ⟨by rw [Trail.revisits, Trail.revisits, hsame], fun site => ?_⟩
    rw [Trail.stop, Trail.stop, Trail.revisits, Trail.revisits, hsame]
    exact hfault _
  push := by
    rintro trail _ stored stored' rfl h
    rw [Trail.push, Trail.push, h.reference?_eq]

/-! ## Acceptance -/

/-- The likeness by which all faults correspond. -/
def acceptanceLikeness (find find' : ObjectId → Option Object) : Likeness :=
  reorderingLikeness find find' (fun _ _ => True) False

theorem acceptanceLikeness_verdicts_iff {verdict verdict' : Except Fault Unit} :
    (acceptanceLikeness find find').Verdicts Eq verdict verdict' ↔
      (verdict = .ok () ↔ verdict' = .ok ()) := by
  constructor
  · intro h
    cases h with
    | ok _ => exact Iff.rfl
    | error _ => simp
    | excused hexcused => exact hexcused.elim
  · intro h
    cases verdict with
    | ok _ =>
      rw [h.mp rfl]
      exact .ok rfl
    | error _ =>
      cases verdict' with
      | ok _ => cases h.mpr rfl
      | error _ => exact .error trivial

/-- A loop is accepted if all of its rounds are, in whatever order they are made. -/
theorem Dict.Rearranged.loops {d d' : Dict} (h : d.Rearranged d') :
    (acceptanceLikeness find find').Loops d d' := by
  rcases h with rfl | ⟨hkeys, order, hin, hperm⟩
  · exact (Likeness.InOrder.refl Object.Reordered.refl d').loops
  · intro judge judge' hround
    have hloop : (acceptanceLikeness find find').Mirrors Eq (d.forM judge) (order.forM judge') := by
      refine Likeness.InOrder.loops hin judge judge' fun key stored stored' hmem hmem' => ?_
      exact hround key stored stored' hmem (hperm.mem_iff.mp hmem')
    have hsame : (order.forM judge').run find' = .ok () ↔ (d'.forM judge').run find' = .ok () := by
      rw [run_forM_eq_ok, run_forM_eq_ok]
      exact forall_congr' fun item => by rw [hperm.mem_iff]
    refine ⟨?_, fun hpaced => hpaced.elim⟩
    rw [acceptanceLikeness_verdicts_iff]
    exact (acceptanceLikeness_verdicts_iff.mp hloop.verdicts).trans hsame

theorem acceptanceLikeness_faithful
    (hfind : ∀ id, Option.Rel Object.Reordered (find id) (find' id)) :
    (acceptanceLikeness find find').Faithful where
  toCoherent := reorderingLikeness_coherent hfind fun _ => trivial
  loops := fun h => h.loops

/-! ## Verdicts -/

variable {question : Question} {p : Profile} {object object' : Object}

/-- The collections that both walks come to by the same way keep the order of their keys. -/
def Question.KeepsCollections (question : Question) (p : Profile)
    (find find' : ObjectId → Option Object) (object object' : Object) : Prop :=
  ∀ path (schema : Schema) d d', schema.isCollection = true →
    question.Judges find p object path schema (.dictionary d) →
    question.Judges find' p object' path schema (.dictionary d') →
    d'.map Prod.fst = d.map Prod.fst

/-- The two walks come to values by the same way. -/
def Question.KeepsCollections.guide
    (h : question.KeepsCollections p find find' object object') :
    (reorderingLikeness find find' Eq True).Guide p where
  meets := fun schema value value' => ∃ path, question.Judges find p object path schema value ∧
    question.Judges find' p object' path schema value'
  next := by
    rintro schema inner value value' part part' slot ⟨path, hvalue, hvalue'⟩ hleads hleads'
    exact ⟨slot :: path, hvalue.step hleads, hvalue'.step hleads'⟩
  loops := by
    rintro schema d d' hcollection ⟨path, hvalue, hvalue'⟩ harranged
    have hkeys := h path schema d d' hcollection hvalue hvalue'
    exact Likeness.InOrder.loops (harranged.inOrder hkeys)

/-- In another order of entries an object is accepted as before, and if the collections keep their
order the verdict is the same. -/
theorem outcome_reordered (question : Question) {doc doc' : Document} (p : Profile)
    (maxDepth : Nat) {object object' : Object}
    (hdoc : ∀ id, Option.Rel Object.Reordered (doc.get? id) (doc'.get? id))
    (h : Object.Reordered object object') :
    (question.outcome doc p maxDepth none object = .ok () ↔
      question.outcome doc' p maxDepth none object' = .ok ()) ∧
    (question.KeepsCollections p doc.get? doc'.get? object object' → ∀ patience?,
      question.outcome doc' p maxDepth patience? object' =
        question.outcome doc p maxDepth patience? object) := by
  refine ⟨?_, fun hkeeps patience? => ?_⟩
  · have hverdicts := question.mirrors (acceptanceLikeness_faithful hdoc)
      (reorderingTrails fun _ => trivial) p maxDepth h
    exact acceptanceLikeness_verdicts_iff.mp hverdicts
  · have hl : (reorderingLikeness doc.get? doc'.get? Eq True).Coherent :=
      reorderingLikeness_coherent hdoc fun _ => rfl
    have hmirrors := question.mirrors_along hl (reorderingTrails fun _ => rfl) hkeeps.guide maxDepth
      h fun value value' hstands hstands' hkind hkind' =>
        ⟨[], .start hstands hkind, .start hstands' hkind'⟩
    have hhops : ∀ cause cause' : Fault, cause = cause' → cause'.atHops = cause.atHops := by
      rintro cause _ rfl
      rfl
    have hverdicts := hmirrors.verdicts_within hl trivial hhops
      (question.orderly_open _ p maxDepth object) (question.orderly_open _ p maxDepth object')
      patience?
    have hid (verdict : Except Fault Unit) : verdict.mapError id = verdict := by
      cases verdict <;> rfl
    rw [← hid (question.outcome doc p maxDepth patience? object)]
    exact hverdicts.eq_mapError trivial fun _ _ hfault => hfault.symm

/-- A document that stores resources with these entries. -/
def listing (resources : Dict) : Document where
  header := "1.7"
  trailer := []
  objects := .ofList [(⟨1, 0⟩, .dictionary resources)]

theorem get?_listing (resources : Dict) (id : ObjectId) : (listing resources).get? id =
    if id = ⟨1, 0⟩ then some (.dictionary resources) else none := by
  rw [Document.get?, listing, ObjectTable.ofList]
  simp only [List.foldl, ObjectTable.get?_insert]
  rfl

/-- The first member at fault depends on the order of the members. -/
example :
    Question.resources.outcome (listing [(Text.Utf8.encode "XObject", .dictionary [
        (Text.Utf8.encode "A", .integer 1), (Text.Utf8.encode "B", .integer 2)])])
        ⟨.v1_7, .strict⟩ 2 none (.reference ⟨1, 0⟩) =
      .error (.wrongKind ⟨"xObjectResourceDict", "A"⟩ .stream .integer) ∧
    Question.resources.outcome (listing [(Text.Utf8.encode "XObject", .dictionary [
        (Text.Utf8.encode "B", .integer 2), (Text.Utf8.encode "A", .integer 1)])])
        ⟨.v1_7, .strict⟩ 2 none (.reference ⟨1, 0⟩) =
      .error (.wrongKind ⟨"xObjectResourceDict", "B"⟩ .stream .integer) :=
  ⟨rfl, rfl⟩

/-- Resources lead to the external objects they name, and to nothing else. -/
theorem Schema.Leads.of_resources {entries : Dict} {slot : Slot} {inner : Schema} {part : Object}
    (h : Schema.resources.Leads find p (.dictionary entries) slot inner part) :
    inner = .externals ∧ Yields find entries "XObject" part := by
  have hsheet {value : Object} {schema : Schema} {sheet : Sheet} {header : Dict}
      (h : schema.Applies find p value sheet header) (hschema : schema = .resources)
      (hvalue : value = .dictionary entries) : sheet = Grammar.resources ∧ header = entries := by
    induction h with
    | resources => cases hvalue; exact ⟨rfl, rfl⟩
    | inspected _ hclause _ _ ih =>
      obtain ⟨rfl, -⟩ := ih hschema hvalue
      simp [Grammar.resources] at hclause
    | _ => cases hschema
  cases h with
  | clause happlies hclause hleads =>
    obtain ⟨rfl, rfl⟩ := hsheet happlies rfl rfl
    simp only [Grammar.resources, List.mem_cons, List.not_mem_nil, or_false] at hclause
    cases hleads with
    | enter hyields _ =>
      simp only [reduceCtorEq, Clause.enter.injEq, false_or] at hclause
      obtain ⟨rfl, rfl⟩ := hclause
      exact ⟨rfl, hyields⟩
    | enterWith _ => simp at hclause

/-- A member that is null leads to nothing. -/
theorem Schema.not_leads_of_null {key : Bytes} {slot : Slot} {inner : Schema} {part : Object} :
    ¬ Schema.externals.Leads find p (.dictionary [(key, .null)]) slot inner part := by
  have hnone {value : Object} {schema : Schema} {sheet : Sheet} {header : Dict}
      (h : schema.Applies find p value sheet header) : schema ≠ .externals := by
    induction h with
    | inspected _ _ _ _ ih => exact ih
    | _ => simp
  intro h
  cases h with
  | clause happlies _ _ => exact hnone happlies rfl
  | member hmem hstands =>
    cases List.mem_singleton.mp hmem
    cases hstands.eq_of_direct rfl

theorem stands_listing (resources : Dict) :
    Stands (listing resources).get? (.reference ⟨1, 0⟩) (.dictionary resources) := by
  have hstored : (listing resources).get? ⟨1, 0⟩ = some (.dictionary resources) := by
    rw [get?_listing, if_pos rfl]
  exact .through hstored (by simp) (.direct rfl)

/-- The resources are judged, and the collection in which they name an object that is null. -/
theorem judges_listing {resources : Dict} {key : Bytes} {path : List Slot} {schema : Schema}
    {value : Object}
    (hget : Dict.get? resources (Text.Utf8.encode "XObject") = some (.dictionary [(key, .null)]))
    (h : Question.resources.Judges (listing resources).get? p (.reference ⟨1, 0⟩) path schema
      value) :
    schema = .resources ∧ value = .dictionary resources ∨
      schema = .externals ∧ value = .dictionary [(key, .null)] := by
  induction h with
  | start hstands _ => exact .inl ⟨rfl, (stands_listing resources).unique hstands⟩
  | step _ hleads ih =>
    rcases ih with ⟨rfl, rfl⟩ | ⟨rfl, rfl⟩
    · obtain ⟨rfl, -, stored, hstored, hstands⟩ := hleads.of_resources
      cases hget.symm.trans hstored
      exact .inr ⟨rfl, hstands.eq_of_direct rfl⟩
    · exact absurd hleads Schema.not_leads_of_null

/-- Resources with fonts, and a name for an external object that is null. -/
def nullMember : Dict := [
  (Text.Utf8.encode "XObject", .dictionary [(Text.Utf8.encode "A", .null)]),
  (Text.Utf8.encode "Font", .dictionary [])]

theorem outcome_reordered_nullMember :
    Question.resources.outcome (listing nullMember) ⟨.v1_7, .strict⟩ 2 none (.reference ⟨1, 0⟩) =
        .ok () ∧
      Question.resources.outcome (listing nullMember.reverse) ⟨.v1_7, .strict⟩ 2 none
        (.reference ⟨1, 0⟩) = .ok () ∧
      Question.resources.outcome (listing nullMember.reverse) ⟨.v1_7, .strict⟩ 1 none
        (.reference ⟨1, 0⟩) = .error (.endless ⟨"resourceDict", "XObject"⟩ none 1 .depth) := by
  have hreordered : Object.Reordered (.dictionary nullMember) (.dictionary nullMember.reverse) :=
    .dictionary (by decide) rfl (List.forall₂_same.mpr fun value _ => .refl value)
      nullMember.reverse_perm.symm
  have hdoc (id : ObjectId) : Option.Rel Object.Reordered ((listing nullMember).get? id)
      ((listing nullMember.reverse).get? id) := by
    rw [get?_listing, get?_listing]
    split
    · exact .some hreordered
    · exact .none
  have hkeeps : Question.resources.KeepsCollections ⟨.v1_7, .strict⟩ (listing nullMember).get?
      (listing nullMember.reverse).get? (.reference ⟨1, 0⟩) (.reference ⟨1, 0⟩) := by
    intro path schema d d' hcollection hjudges hjudges'
    rcases judges_listing rfl hjudges with ⟨rfl, -⟩ | ⟨rfl, heq⟩
    · cases hcollection
    · rcases judges_listing rfl hjudges' with ⟨hschema, -⟩ | ⟨-, heq'⟩
      · cases hschema
      · cases heq
        cases heq'
        rfl
  have hok : Question.resources.outcome (listing nullMember) ⟨.v1_7, .strict⟩ 2 none
      (.reference ⟨1, 0⟩) = .ok () := by rfl
  have hcut : Question.resources.outcome (listing nullMember) ⟨.v1_7, .strict⟩ 1 none
      (.reference ⟨1, 0⟩) = .error (.endless ⟨"resourceDict", "XObject"⟩ none 1 .depth) := by rfl
  have haccepted := (outcome_reordered .resources ⟨.v1_7, .strict⟩ 2 hdoc
    (.refl (.reference ⟨1, 0⟩))).1
  have hverdict := (outcome_reordered .resources ⟨.v1_7, .strict⟩ 1 hdoc
    (.refl (.reference ⟨1, 0⟩))).2
  exact ⟨hok, haccepted.mp hok, (hverdict hkeeps none).trans hcut⟩

end PdfConformance

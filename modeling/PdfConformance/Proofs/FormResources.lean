import PdfConformance.Proofs.Judgement.Variation
import PdfConformance.Proofs.Object.Reordering
import PdfConformance.Proofs.Rule.Meaning

/-! # Resources of a form and by themselves

`outcome_formResources`: a form that has nothing else to be judged is judged as its resources are by
themselves, with one more level to go. Nothing else in its header comes to a fault, so that the two
walks enter the same dictionary with the same levels left, and by way of the same stored value. They
tell a walk that would not end by different places and depths. -/

namespace PdfConformance

open Inquiry

/-- The header of a form with a bounding box and resources, and nothing else. -/
def formAround (box : List Object) (resources : Object) : Dict := [
  (Text.Utf8.encode "Type", .name (Text.Utf8.encode "XObject")),
  (Text.Utf8.encode "Subtype", .name (Text.Utf8.encode "Form")),
  (Text.Utf8.encode "BBox", .array box),
  (Text.Utf8.encode "Resources", resources)]

/-- The keys of such a header. -/
def aroundKeys : List Bytes := ["Type", "Subtype", "BBox", "Resources"].map Text.Utf8.encode

/-- The verdicts are the same, or both are those of walks that would not end. -/
def SameUnlessOverrun (verdict verdict' : Except Fault Unit) : Prop :=
  verdict = verdict' ∨ Overruns verdict ∧ Overruns verdict'

variable {find : ObjectId → Option Object} {p : Profile} {enter : Enter} {c : String}
  {box : List Object} {header entries : Dict} {stored : Object}

/-- A clause finds no fault where nothing is to be found under its keys. -/
theorem Clause.run_of_omits {clause : Clause} (hrules : clause.rules ≠ [])
    (h : ∀ rule ∈ clause.rules, (Container.mk find p header).Omits rule) :
    (clause.check p enter c header).run find = .ok () := by
  have hrun (rule : Rule) (hrule : rule ∈ clause.rules) :
      (rule.check p c header).run find = .ok none := Rule.run_check_eq_none.mpr (h rule hrule)
  cases clause with
  | never key reason => exact absurd rfl hrules
  | enterWith first second _ _ | exclude first second =>
    unfold check
    rw [run_bind_of_run (hrun first (by simp [rules])),
      run_bind_of_run (hrun second (by simp [rules]))]
    rfl
  | _ =>
    unfold check
    rw [run_bind_of_run (hrun _ (List.mem_singleton.mpr rfl))]
    rfl

namespace Grammar

def formBox : Rule := Rule.required "BBox" .rectangle

def formResources : Rule := Rule.optional "Resources" .dictionary |> Rule.since .v1_2

/-- One clause is for the bounding box and one enters the resources. All others are for entries that
are not there, and need not be from the second version on. -/
theorem exists_form_clauses_eq : ∃ before after,
    form.clauses = before ++ .enter formResources .resources :: after ∧
      ∀ clause ∈ before ++ after, clause = .obey formBox ∨ clause.rules ≠ [] ∧
        ∀ rule ∈ clause.rules, Text.Utf8.encode rule.key ∉ aroundKeys ∧
          rule.demand ∈ [.never, .inOldestVersion] :=
  ⟨form.clauses.take 3, form.clauses.drop 4, rfl, by decide⟩

end Grammar

section Header

variable (hheader : (formAround box stored).Perm header)

include hheader

theorem get?_of_perm_formAround (key : Bytes) :
    Dict.get? header key = Dict.get? (formAround box stored) key := by
  have hkeys : ((formAround box stored).map Prod.fst).Nodup := show aroundKeys.Nodup by decide
  exact (Dict.get?_eq_of_perm hkeys hheader key).symm

theorem omits_of_perm_formAround (hversion : .v1_2 ≤ p.version) {rule : Rule}
    (hkey : Text.Utf8.encode rule.key ∉ aroundKeys)
    (hdemand : rule.demand ∈ [.never, .inOldestVersion]) :
    (Container.mk find p header).Omits rule := by
  refine ⟨?_, fun found hfound => ?_⟩
  · have hnewer : p.version ≠ .v1_0 := by
      intro heq
      rw [heq] at hversion
      exact absurd hversion (by decide)
    have hnot : rule.demand.holds p header = false := by
      rcases List.mem_pair.mp hdemand with heq | heq
      · rw [heq]
        rfl
      · rw [heq]
        exact decide_eq_false hnewer
    simp [Rule.isRequired, hnot]
  · rw [get?_of_perm_formAround hheader] at hfound
    simp [aroundKeys] at hkey
    simp [formAround, Dict.get?_cons, hkey] at hfound

/-- The tags are in order. -/
theorem run_designate_form : (designate p .any header).run find = .ok .form := by
  have hget := get?_of_perm_formAround hheader
  have htype : (Grammar.externalType.check p Grammar.external header).run find =
      .ok (some ⟨.name (Text.Utf8.encode "XObject"), .name (Text.Utf8.encode "XObject")⟩) := by
    refine Rule.run_check_of_direct (Container.permits_v1_0 p) ((hget _).trans rfl) rfl (by simp) ?_
    simp [Grammar.externalType, Object.Spells]
  have hsubtype : (Grammar.externalSubtype.check p Grammar.external header).run find =
      .ok (some ⟨.name (Text.Utf8.encode "Form"), .name (Text.Utf8.encode "Form")⟩) := by
    refine Rule.run_check_of_direct (Container.permits_v1_0 p) ((hget _).trans rfl) rfl (by simp) ?_
    exact .of_unlimited rfl (List.mem_singleton.mpr rfl)
  unfold designate
  rw [run_bind_of_run htype, run_bind_of_run hsubtype]
  rfl

/-- Of a form around resources nothing can be refused but the resources. -/
theorem run_judgeExternal_form (hversion : .v1_2 ≤ p.version) (hlength : box.length = 4)
    (hnumbers : ∀ number ∈ box, number.OfKind Kind.numbers)
    (hresolves : Resolves find stored (.dictionary entries)) :
    (judgeExternal p enter .any header).run find =
      (enter ⟨"formStream", "Resources"⟩ ⟨stored, .dictionary entries⟩ .resources).run find := by
  have hget := get?_of_perm_formAround hheader
  obtain ⟨before, after, hclauses, hothers⟩ := Grammar.exists_form_clauses_eq
  have hbox (c : String) : (Grammar.formBox.check p c header).run find =
      .ok (some ⟨.array box, .array box⟩) := by
    refine Rule.run_check_of_direct (Container.permits_v1_0 p) ((hget _).trans rfl) rfl (by simp) ?_
    refine .of_unlimited rfl
      ⟨Object.ofLength_array.mpr hlength, box, rfl, fun number hnumber => ?_⟩
    have hdirect : number.reference? = none := by
      rcases Object.ofKind_numbers.mp (hnumbers number hnumber) with ⟨_, rfl⟩ | ⟨_, rfl⟩ <;> rfl
    exact ⟨number, ⟨[], Nat.zero_le _, .direct hdirect⟩, hnumbers number hnumber⟩
  have hresources (c : String) : (Grammar.formResources.check p c header).run find =
      .ok (some ⟨stored, .dictionary entries⟩) := by
    refine Rule.run_check_eq_some.mpr ⟨.inr hversion, ⟨(hget _).trans rfl, hresolves, by simp⟩, ?_⟩
    exact .of_unlimited rfl (List.mem_singleton.mpr rfl)
  unfold judgeExternal
  rw [run_bind_of_run (run_designate_form hheader)]
  change (Grammar.form.check p enter header).run find = _
  unfold Sheet.check
  rw [hclauses, run_forM_of_ok]
  · unfold Clause.check
    rw [run_bind_of_run (hresources _)]
    rfl
  · intro clause hclause
    rcases hothers clause hclause with rfl | ⟨hrules, homitted⟩
    · unfold Clause.check
      rw [run_bind_of_run (hbox _)]
      rfl
    · refine Clause.run_of_omits hrules fun rule hrule => ?_
      obtain ⟨hkey, hdemand⟩ := homitted rule hrule
      exact omits_of_perm_formAround hheader hversion hkey hdemand

end Header

theorem Inquiry.AgreeUpTo.sameUnlessOverrun {x y : Inquiry Unit}
    (h : AgreeUpTo Fault.IsEndless Eq x y) (h' : AgreeUpTo Fault.IsEndless Eq y x) :
    SameUnlessOverrun (x.run find) (y.run find) := by
  rcases h.run_eq find with heq | hover
  · exact .inl heq.symm
  · rcases h'.run_eq find with heq | hover'
    · exact .inl heq
    · exact .inr ⟨hover, hover'⟩

/-- The places that are named in faults apart, it does not matter how a value has been come by: what
counts is the ids on the way, and the levels that are left. -/
theorem run_deeper_sameUnlessOverrun (levels : Nat) {trail trail' : Trail}
    (hwithin : trail'.within = trail.within) (site site' : Site) (entry : Entry) {schema : Schema}
    (hschema : ∀ rule ∈ schema.rules, rule.isTimely = true) :
    SameUnlessOverrun ((deeper p levels trail site entry schema).run find)
      ((deeper p levels trail' site' entry schema).run find) := by
  have hendless (site : Site) (id? : Option ObjectId) (depth : Nat) (bound : Bound) :
      (Fault.endless site id? depth bound).IsEndless := ⟨site, id?, depth, bound, rfl⟩
  have hsubset : trail'.within ⊆ trail.within := hwithin ▸ List.Subset.refl _
  have hsubset' : trail.within ⊆ trail'.within := hwithin ▸ List.Subset.refl _
  exact AgreeUpTo.sameUnlessOverrun
    (agree_deeper_of_subset p (Nat.le_refl _) hsubset hendless site site' entry hschema)
    (agree_deeper_of_subset p (Nat.le_refl _) hsubset' hendless site' site entry hschema)

/-- A form around resources and the resources by themselves get the same verdict, unless it is that
the walk would not end, which is told of the one where it is told of the other. -/
theorem outcome_formResources (doc : Document) (p : Profile) (hversion : .v1_2 ≤ p.version)
    (maxDepth : Nat) {box : List Object} (hlength : box.length = 4)
    (hnumbers : ∀ number ∈ box, number.OfKind Kind.numbers) {stored : Object} {header : Dict}
    (hheader : (formAround box stored).Perm header) {ids : List ObjectId} {entries : Dict}
    (hhops : ids.length ≤ 32) (hpasses : Passes doc.get? ids stored (.dictionary entries)) :
    let form := (Question.external .any).outcome doc p (maxDepth + 1) none (.stream header)
    let resources := Question.resources.outcome doc p maxDepth none stored
    (¬ Overruns form ∨ ¬ Overruns resources → form = resources) ∧
      (Overruns form ↔ Overruns resources) := by
  intro form resources
  have hresolves : Resolves doc.get? stored (.dictionary entries) := ⟨ids, hhops, hpasses⟩
  have hform : form = (deeper p maxDepth ⟨[], 1⟩ ⟨"formStream", "Resources"⟩
      ⟨stored, .dictionary entries⟩ .resources).run doc.get? := by
    refine (Question.outcome_stream doc p (maxDepth + 1) .any header).trans ?_
    exact run_judgeExternal_form hheader hversion hlength hnumbers hresolves
  have hresources : resources = (deeper p maxDepth .start ⟨"caller", "Resources"⟩
      ⟨stored, .dictionary entries⟩ .resources).run doc.get? :=
    run_bind_of_run (run_valueOf_eq_ok.mpr hresolves) _
  have hwithin : Trail.start.within = (Trail.mk [] 1).within := rfl
  have htimely : ∀ rule ∈ Schema.resources.rules, rule.isTimely = true := by simp [Schema.rules]
  have hsame : SameUnlessOverrun form resources := by
    rw [hform, hresources]
    exact run_deeper_sameUnlessOverrun maxDepth hwithin _ _ _ htimely
  rcases hsame with heq | ⟨hover, hover'⟩
  · rw [heq]
    exact ⟨fun _ => rfl, Iff.rfl⟩
  · refine ⟨fun hnot => ?_, iff_of_true hover hover'⟩
    rcases hnot with hnot | hnot
    · exact absurd hover hnot
    · exact absurd hover' hnot

/-- Resources behind two references, which name an image without a height, and resources that name a
form around themselves. -/
def furnished14 : Document where
  header := "1.4"
  trailer := []
  objects := .ofList [
    (⟨1, 0⟩, .reference ⟨2, 0⟩),
    (⟨2, 0⟩, naming (Text.Utf8.encode "Im0", .stream [
      (Text.Utf8.encode "Subtype", .name (Text.Utf8.encode "Image")),
      (Text.Utf8.encode "Width", .integer 1)])),
    (⟨3, 0⟩, naming (Text.Utf8.encode "Fm0", .stream (formAround unitBox (.reference ⟨3, 0⟩))))]
where
  unitBox : List Object := [.integer 0, .integer 0, .integer 1, .integer 1]
  naming (member : Bytes × Object) : Object :=
    .dictionary [(Text.Utf8.encode "XObject", .dictionary [member])]

theorem outcome_formResources_furnished14 :
    (Question.external .any).outcome furnished14 ⟨.v1_4, .strict⟩ 8 none
        (.stream (formAround furnished14.unitBox (.reference ⟨1, 0⟩)).reverse) =
          .error (.missingEntry ⟨"imageStream", "Height"⟩) ∧
      Question.resources.outcome furnished14 ⟨.v1_4, .strict⟩ 7 none (.reference ⟨3, 0⟩) =
        .error (.endless ⟨"formStream", "Resources"⟩ (some ⟨3, 0⟩) 3 .cycle) ∧
      Overruns ((Question.external .any).outcome furnished14 ⟨.v1_4, .strict⟩ 8 none
        (.stream (formAround furnished14.unitBox (.reference ⟨3, 0⟩)).reverse)) := by
  have hnumbers : ∀ number ∈ furnished14.unitBox, number.OfKind Kind.numbers := by
    simp [furnished14.unitBox, Object.OfKind, Kind.numbers, Object.kind]
  have hperm (stored : Object) : (formAround furnished14.unitBox stored).Perm
      (formAround furnished14.unitBox stored).reverse := (List.reverse_perm _).symm
  have hfaulty : Question.resources.outcome furnished14 ⟨.v1_4, .strict⟩ 7 none
      (.reference ⟨1, 0⟩) = .error (.missingEntry ⟨"imageStream", "Height"⟩) := by rfl
  have hcircle : Question.resources.outcome furnished14 ⟨.v1_4, .strict⟩ 7 none
      (.reference ⟨3, 0⟩) =
        .error (.endless ⟨"formStream", "Resources"⟩ (some ⟨3, 0⟩) 3 .cycle) := by rfl
  have hsame := outcome_formResources furnished14 ⟨.v1_4, .strict⟩ (by decide) 7 rfl hnumbers
    (hperm (.reference ⟨1, 0⟩)) (show [⟨1, 0⟩, ⟨2, 0⟩].length ≤ 32 by decide)
    (.through rfl (by simp) (.through rfl (by simp [furnished14.naming]) (.direct rfl)))
  have hcircles := outcome_formResources furnished14 ⟨.v1_4, .strict⟩ (by decide) 7 rfl hnumbers
    (hperm (.reference ⟨3, 0⟩)) (show [⟨3, 0⟩].length ≤ 32 by decide)
    (.through rfl (by simp [furnished14.naming]) (.direct rfl))
  have hends : ¬ Overruns (Question.resources.outcome furnished14 ⟨.v1_4, .strict⟩ 7 none
      (.reference ⟨1, 0⟩)) := by
    rintro ⟨fault, hfault, site, id?, depth, bound, rfl⟩
    cases hfaulty.symm.trans hfault
  exact ⟨(hsame.1 (.inr hends)).trans hfaulty, hcircle,
    hcircles.2.mpr ⟨_, hcircle, _, _, _, _, rfl⟩⟩

end PdfConformance

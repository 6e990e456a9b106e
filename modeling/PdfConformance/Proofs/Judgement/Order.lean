import PdfConformance.Judgement
import PdfConformance.Proofs.Grammar
import PdfConformance.Proofs.Rule.Order

/-! # Judgements are orderly

`judge_orderly`: a value is judged in an orderly way if the entries among its parts are entered in
one. `deeper_orderly` closes the circle: an invariant of the trail that is kept on every descent,
and expects the faults of those that are refused, holds of the whole walk. -/

namespace PdfConformance

open Inquiry

variable {t : Terms} {p : Profile} {enter : Enter}

/-- An entry whose stored value is one of `parts` is entered in an orderly way, unless to judge it
as what is not known for an image or a form. -/
def Enter.OrderlyOn (t : Terms) (parts : List Object) (enter : Enter) : Prop :=
  ∀ site entry (schema : Schema), entry.stored ∈ parts → Stands t.find entry.stored entry.value →
    Grammar.external ∉ schema.containers → Orderly t (fun _ => True) (enter site entry schema)

theorem RuleTable.check_orderly (ht : t.Admits p) (table : RuleTable)
    (hplace : table.container ≠ Grammar.external) {header : Dict} (hheader : t.Header header) :
    Orderly t (fun _ => True) (table.check p header) :=
  Orderly.forM fun rule _ => (rule.check_orderly ht table.container hheader
    fun heq => absurd heq hplace).bind fun _ _ => .done trivial

theorem Rule.Reports.mem_parts {header : Dict} {rule : Rule} {entry : Entry}
    (h : rule.Reports t.find header (some entry)) : entry.stored ∈ header.map Prod.snd :=
  Dict.mem_values_of_get? h.1

theorem Rule.Reports.has {header : Dict} {rule : Rule} {entry : Entry}
    (h : rule.Reports t.find header (some entry)) :
    Dict.has header (Text.Utf8.encode rule.key) = true := by
  rw [Dict.has, h.1]
  rfl

/-- The entries of a value that a rule reports are in view. -/
theorem Rule.Reports.header {header inner : Dict} {rule : Rule} {entry : Entry}
    (h : rule.Reports t.find header (some entry)) (hheader : t.Header header)
    (hinner : entry.value.header? = some inner) : t.Header inner := by
  have hheld := Terms.held_of_stands (hheader.held_part h.mem_parts) h.2.1
  cases hvalue : entry.value with
  | dictionary entries =>
    rw [hvalue] at hheld hinner
    cases hinner
    exact .inl hheld
  | stream header =>
    rw [hvalue] at hheld hinner
    cases hinner
    exact .inr hheld
  | _ => rw [hvalue] at hinner; cases hinner

theorem Clause.check_orderly (ht : t.Admits p) {header : Dict} (hheader : t.Header header)
    (he : enter.OrderlyOn t (header.map Prod.snd)) {container : String}
    (hplace : container ≠ Grammar.external) (clause : Clause)
    (htables : Grammar.external ∉ clause.containers) (hpaired : clause.isPaired = true) :
    Orderly t (fun _ => True) (clause.check p enter container header) := by
  have reports (rule : Rule) := rule.check_orderly ht container hheader
    fun heq => absurd heq hplace
  cases clause with
  | obey rule => exact (reports rule).bind fun _ _ => .done trivial
  | inspect rule table =>
    refine (reports rule).bind fun found? hentry => ?_
    cases found? with
    | none => exact .done trivial
    | some entry =>
      cases hinner : entry.value.header? with
      | none => simpa [hinner] using .done trivial
      | some inner =>
        have hne : table.container ≠ Grammar.external := fun heq =>
          htables (List.mem_singleton.mpr heq.symm)
        simpa [hinner] using table.check_orderly ht hne (hentry.header hheader hinner)
  | enter rule schema =>
    refine (reports rule).bind fun found? hentry => ?_
    cases found? with
    | none => exact .done trivial
    | some entry =>
      by_cases hkind : entry.value.kind = schema.kind
      · simpa only [if_pos hkind] using he _ entry schema hentry.mem_parts hentry.2.1 htables
      · simpa only [if_neg hkind] using .done trivial
  | enterWith rule companion label schema =>
    refine (reports rule).bind fun found? hentry => ?_
    refine (reports companion).bind fun companion? hcompanion => ?_
    cases found? with
    | none => exact .done trivial
    | some entry =>
      cases companion? with
      | none =>
        obtain ⟨hkey, hcompanionKey⟩ : rule.key = "PieceInfo" ∧ companion.key = "LastModified" := by
          simpa [Clause.isPaired] using hpaired
        have hhas := hentry.has
        have hlacks : Lacks t.find header companion.key := hcompanion
        rw [hkey] at hhas ⊢
        rw [hcompanionKey] at hlacks ⊢
        exact .fail (ht _ (.missingCompanion container hheader hhas hlacks)) rfl
      | some _ => exact he _ entry schema hentry.mem_parts hentry.2.1 htables
  | empty rule reason =>
    refine (reports rule).bind fun found? _ => ?_
    cases found? with
    | none => exact .done trivial
    | some entry => exact .constrain ht _ _ reason
  | absent rule reason =>
    refine (reports rule).bind fun found? _ => ?_
    cases found? with
    | none => exact .done trivial
    | some entry => exact .fail (ht _ (.constraint _ reason)) rfl
  | exclude first second =>
    refine (reports first).bind fun first? hfirst => ?_
    refine (reports second).bind fun second? hsecond => ?_
    cases first? with
    | none => exact .done trivial
    | some _ =>
      cases second? with
      | none => exact .done trivial
      | some _ =>
        obtain ⟨hfirstKey, hsecondKey⟩ :
            first.key = "StructParent" ∧ second.key = "StructParents" := by
          simpa [Clause.isPaired] using hpaired
        have hhas := hfirst.has
        have hhas' := hsecond.has
        rw [hfirstKey] at hhas ⊢
        rw [hsecondKey] at hhas' ⊢
        exact .fail (ht _ (.conflict container hheader hhas hhas')) rfl
  | never key reason => exact .fail (ht _ (.constraint _ reason)) rfl

theorem Sheet.check_orderly (ht : t.Admits p) {header : Dict} (hheader : t.Header header)
    (he : enter.OrderlyOn t (header.map Prod.snd)) (sheet : Sheet)
    (hsheet : Grammar.external ∉ sheet.containers)
    (hpaired : ∀ clause ∈ sheet.clauses, clause.isPaired = true) :
    Orderly t (fun _ => True) (sheet.check p enter header) := by
  obtain ⟨hplace, htables⟩ := not_or.mp (mt List.mem_cons.mpr hsheet)
  refine Orderly.forM fun clause hclause => ?_
  have hclauseTables : Grammar.external ∉ clause.containers := fun hmem =>
    htables (List.mem_flatMap.mpr ⟨clause, hclause, hmem⟩)
  exact clause.check_orderly ht hheader he (Ne.symm hplace) hclauseTables (hpaired clause hclause)

theorem judgeImage_orderly (ht : t.Admits p) {header : Dict} (hheader : t.Header header)
    (he : enter.OrderlyOn t (header.map Prod.snd)) (use : ImageUse) :
    Orderly t (fun _ => True) (judgeImage p enter use header) := by
  have hplace := Grammar.container_ne_external use
  refine ((Grammar.imageHead use).check_orderly ht hplace hheader).bind fun _ _ => ?_
  refine (Grammar.imageMask.check_orderly ht use.container hheader fun _ => rfl).bind
    fun mask? _ => ?_
  exact Sheet.check_orderly ht hheader he _ (Grammar.external_not_mem_image use _)
    (Grammar.isPaired_image use _)

/-- What the designation settled on tells of a header, where it makes a fault of it. -/
def Designation.Fits (t : Terms) (p : Profile) (header : Dict) : Designation → Prop
  | form | image => True
  | postScript => ∃ stored value,
      Dict.get? header (Text.Utf8.encode Grammar.externalSubtype.key) = some stored ∧
        Stands t.find stored value ∧ value.nameText? = some "PS"
  | unknown _ => p.mode = .strict
  | untagged => p.mode = .strict ∧ Lacks t.find header Grammar.externalSubtype.key

theorem Object.exists_nameText?_of_kind {value : Object} (h : value.kind = .name) :
    ∃ name, value.nameText? = some name := by
  cases value with
  | name spelling => exact ⟨_, rfl⟩
  | string form content => cases form <;> cases h
  | _ => cases h

theorem Designation.fits_ofSubtype {header : Dict} {found? : Option Entry}
    (hentry : Grammar.externalSubtype.Reports t.find header found?) (hmode : p.mode = .strict ∨
      (ofSubtype (found?.bind (·.value.nameText?))).isUsable = true) :
    (ofSubtype (found?.bind (·.value.nameText?))).Fits t p header := by
  cases found? with
  | none =>
    rcases hmode with hmode | hmode
    · exact ⟨hmode, hentry⟩
    · cases hmode
  | some entry =>
    obtain ⟨hget, hstands, hadmits⟩ := hentry
    obtain ⟨name, hname⟩ := Object.exists_nameText?_of_kind (of_decide_eq_true hadmits)
    have hsubtype : (some entry).bind (·.value.nameText?) = some name := hname
    rw [hsubtype] at hmode ⊢
    unfold ofSubtype at hmode ⊢
    by_cases hform : name = "Form"
    · simp only [hform, if_true]; trivial
    · by_cases himage : name = "Image"
      · simp [himage, Fits]
      · by_cases hps : name = "PS"
        · subst hps
          exact ⟨_, _, hget, hstands, hname⟩
        · simpa [hform, himage, hps, Fits, isUsable] using hmode

theorem designate_orderly (ht : t.Admits p) {header : Dict} (hheader : t.Header header)
    (hint : Hint) : Orderly t (·.Fits t p header) (designate p hint header) := by
  refine (Grammar.externalType.check_orderly ht _ hheader fun _ => rfl).bind fun _ _ => ?_
  refine (Grammar.externalSubtype.check_orderly ht _ hheader fun _ => rfl).bind
    fun found? hentry => ?_
  have hfits := Designation.fits_ofSubtype (p := p) hentry
  revert hfits
  generalize Designation.ofSubtype (found?.bind (·.value.nameText?)) = declared
  intro hfits
  unfold settle
  split
  · have hinferred : (Designation.infer header hint).Fits t p header := by
      cases hint with
      | any => simp only [Designation.infer]; split <;> trivial
      | form => trivial
      | image => trivial
    exact .done hinferred
  · rename_i hcond
    refine (Orderly.constrain ht _ _ _).bind fun _ _ => .done ?_
    apply hfits
    cases hu : declared.isUsable with
    | true => exact .inr rfl
    | false =>
      cases hmode : p.mode with
      | strict => exact .inl rfl
      | relaxed => simp [hu, hmode] at hcond

theorem judgeExternal_orderly (ht : t.Admits p) {header : Dict} (hheader : t.Header header)
    (he : enter.OrderlyOn t (header.map Prod.snd)) (hint : Hint) :
    Orderly t (fun _ => True) (judgeExternal p enter hint header) := by
  refine (designate_orderly ht hheader hint).bind fun designation hfits => ?_
  cases designation with
  | form =>
    exact Sheet.check_orderly ht hheader he Grammar.form Grammar.external_not_mem_form
      Grammar.isPaired_form
  | image => exact judgeImage_orderly ht hheader he .primary
  | postScript =>
    obtain ⟨stored, value, hget, hstands, hname⟩ := hfits
    exact .fail (ht _ (.unsupported _ _ hheader hget hstands hname)) rfl
  | unknown subtype => exact .fail (ht _ (.unknownSubtype _ subtype hfits)) rfl
  | untagged => exact .fail (ht _ (.untagged hheader hfits.1 hfits.2)) rfl

theorem unexpected_orderly (ht : t.Admits p) (site : Site) (expected : Shape) {value : Object}
    (hdirect : value.reference? = none) :
    Orderly t (fun _ => True) (unexpected site expected value) :=
  .fail (ht _ (.wrongKind site expected (Object.kind_ne_reference hdirect))) rfl

theorem judgeAlternate_orderly (ht : t.Admits p) {parts : List Object} {item : Object}
    (he : enter.OrderlyOn t parts) (hitem : item ∈ parts) (hheld : t.held item) :
    Orderly t (fun _ => True) (judgeAlternate enter item) := by
  refine (Orderly.valueIfAny ht _ false hheld).bind fun value? hvalue => ?_
  cases value? with
  | none => exact .done trivial
  | some value =>
    cases value with
    | stream header => exact he _ _ _ hitem hvalue List.not_mem_nil
    | dictionary entries => exact he _ _ _ hitem hvalue List.not_mem_nil
    | _ => exact unexpected_orderly ht _ _ hvalue.reference?_eq_none

theorem judgeMember_orderly (ht : t.Admits p) {entries : Dict} {member : Bytes × Object}
    (he : enter.OrderlyOn t (entries.map Prod.snd)) (hmember : member ∈ entries)
    (hheld : t.held member.2) : Orderly t (fun _ => True) (judgeMember enter member) := by
  refine (Orderly.valueIfAny ht _ false hheld).bind fun value? hvalue => ?_
  cases value? with
  | none => exact .done trivial
  | some value =>
    cases value with
    | stream header => exact he _ _ _ (List.mem_map_of_mem hmember) hvalue List.not_mem_nil
    | _ => exact unexpected_orderly ht _ _ hvalue.reference?_eq_none

theorem judgePiece_orderly (ht : t.Admits p) {piece : Bytes × Object} (hheld : t.held piece.2) :
    Orderly t (fun _ => True) (judgePiece p piece) := by
  refine (Orderly.valueOf ht _ hheld).bind fun value hstands => ?_
  cases value with
  | dictionary data =>
    have hheader : t.Header data := .inl (Terms.held_of_stands hheld hstands)
    exact Grammar.pieceData.check_orderly ht (by decide) hheader
  | _ => exact unexpected_orderly ht _ _ hstands.reference?_eq_none

theorem judgePrepress_orderly (ht : t.Admits p) {entries : Dict}
    (he : enter.OrderlyOn t (entries.map Prod.snd)) (hheader : t.Header entries) :
    Orderly t (fun _ => True) (judgePrepress enter entries) := by
  match entries with
  | [] => exact .fail (ht _ (.malformed _ _)) rfl
  | [(version, stored)] =>
    have hpart : stored ∈ [(version, stored)].map Prod.snd := List.mem_singleton.mpr rfl
    simp only [judgePrepress]
    split
    · exact .fail (ht _ (.malformed _ _)) rfl
    · rename_i table htable
      have hplace := Grammar.container_prepressTable_ne htable
      refine (Orderly.valueOf ht _ (hheader.held_part hpart)).bind fun value hstands => ?_
      cases value with
      | dictionary _ =>
        exact he _ _ _ hpart hstands fun hmem => hplace (List.mem_singleton.mp hmem).symm
      | _ => exact unexpected_orderly ht _ _ hstands.reference?_eq_none
  | _ :: _ :: _ => exact .fail (ht _ (.malformed _ _)) rfl

/-- A value is judged in an orderly way if its parts are entered in one. -/
theorem judge_orderly (ht : t.Admits p) {value : Object} (hheld : t.held value)
    (he : enter.OrderlyOn t value.parts) (schema : Schema)
    (hschema : Grammar.external ∉ schema.containers) :
    Orderly t (fun _ => True) (judge p enter schema value) := by
  cases value with
  | array items =>
    cases schema with
    | alternates =>
      exact Orderly.forM fun item hitem =>
        judgeAlternate_orderly ht he hitem (t.held_part hheld hitem)
    | _ => exact .done trivial
  | dictionary entries =>
    have hheader : t.Header entries := .inl hheld
    have heldEntry (entry : Bytes × Object) (h : entry ∈ entries) : t.held entry.2 :=
      hheader.held_part (List.mem_map_of_mem h)
    cases schema with
    | alternateImage =>
      exact Sheet.check_orderly ht hheader he Grammar.alternateImage
        Grammar.external_not_mem_alternateImage Grammar.isPaired_alternateImage
    | resources =>
      exact Sheet.check_orderly ht hheader he Grammar.resources Grammar.external_not_mem_resources
        Grammar.isPaired_resources
    | externals =>
      exact Orderly.forM fun member hmember =>
        judgeMember_orderly ht he hmember (heldEntry member hmember)
    | pieceInfo =>
      exact Orderly.forM fun piece hpiece => judgePiece_orderly ht (heldEntry piece hpiece)
    | prepress => exact judgePrepress_orderly ht he hheader
    | table table =>
      have hplace : table.container ≠ Grammar.external := fun heq =>
        hschema (List.mem_singleton.mpr heq.symm)
      exact table.check_orderly ht hplace hheader
    | _ => exact .done trivial
  | stream header =>
    cases schema with
    | external hint => exact judgeExternal_orderly ht (.inr hheld) he hint
    | image use => exact judgeImage_orderly ht (.inr hheld) he use
    | barred site reason => exact .fail (ht _ (.constraint site reason)) rfl
    | _ => exact .done trivial
  | _ => cases schema <;> exact .done trivial

/-- What holds of the levels that are left, the trail, and each stored value that may be entered. -/
structure Terms.Invariant (t : Terms) where
  holds : (levels : Nat) → Trail → Object → Prop
  stop : ∀ {levels : Nat} {trail : Trail} {stored : Object} (site : Site), t.held stored →
    holds levels trail stored → levels = 0 ∨ trail.revisits stored = true →
    t.fault (trail.stop site stored)
  push : ∀ {levels : Nat} {trail : Trail} {stored value part : Object},
    holds (levels + 1) trail stored → trail.revisits stored = false →
    Stands t.find stored value → part ∈ value.parts → holds levels (trail.push stored) part

theorem Trail.atHops_stop (trail : Trail) (site : Site) (stored : Object) :
    (trail.stop site stored).atHops = false := by
  unfold stop
  split <;> rfl

theorem deeper_orderly (ht : t.Admits p) (inv : t.Invariant) {levels : Nat} {trail : Trail}
    {parts : List Object} (h : ∀ part ∈ parts, t.held part ∧ inv.holds levels trail part) :
    (deeper p levels trail).OrderlyOn t parts := by
  induction levels generalizing trail parts with
  | zero =>
    intro site entry schema hpart hstands _
    obtain ⟨hheld, hinv⟩ := h _ hpart
    exact .fail (inv.stop site hheld hinv (.inl rfl)) (trail.atHops_stop site entry.stored)
  | succ levels ih =>
    intro site entry schema hpart hstands hschema
    obtain ⟨hheld, hinv⟩ := h _ hpart
    have hvalue := Terms.held_of_stands hheld hstands
    rw [deeper]
    cases hrevisits : trail.revisits entry.stored with
    | true =>
      exact .fail (inv.stop site hheld hinv (.inr hrevisits)) (trail.atHops_stop site entry.stored)
    | false =>
      refine judge_orderly ht hvalue (ih fun part hmem => ?_) schema hschema
      exact ⟨t.held_part hvalue hmem, inv.push hinv hrevisits hstands hmem⟩

/-- Terms on which nothing but the order of look-ups and chances to cancel is asked. -/
def openTerms (find : ObjectId → Option Object) : Terms where
  find
  held := fun _ => True
  held_part := fun _ _ => trivial
  held_stored := fun _ _ => trivial
  fault := fun _ => True

def openInvariant (find : ObjectId → Option Object) : (openTerms find).Invariant where
  holds := fun _ _ _ => True
  stop := fun _ _ _ _ => trivial
  push := fun _ _ _ _ => trivial

end PdfConformance

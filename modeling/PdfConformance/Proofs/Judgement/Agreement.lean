import PdfConformance.Judgement
import PdfConformance.Proofs.Grammar
import PdfConformance.Proofs.Rule.Agreement

/-! # Judgements that agree up to excused faults

Judging is carried over from its parts: where two profiles agree on every rule of the grammar and on
what an external object is taken for, and two ways of entering agree on every entry, all that is
judged with them agrees. -/

namespace PdfConformance

open Inquiry

variable {excused : Fault → Prop} {p q : Profile} {enter enter' : Enter}

/-- It is excused to find that an external object has no usable designation. -/
def ExcusesUnusable (excused : Fault → Prop) : Prop :=
  excused (.missingEntry ⟨Grammar.external, Grammar.externalSubtype.key⟩) ∧
    ∀ subtype, excused (.unknownSubtype Grammar.external subtype)

/-- Only a usable designation can contradict the caller. -/
theorem Designation.contradicts_eq_false {declared : Designation} (h : declared.isUsable = false)
    (hint : Hint) : declared.contradicts hint = false := by
  cases declared with
  | unknown _ => rfl
  | untagged => rfl
  | _ => cases h

/-- Designations that differ only where it is excused that the first is not usable. -/
def Designation.AgreeUpTo (excused : Fault → Prop) (a b : Designation) : Prop :=
  a = b ∨ a.isUsable = false ∧ ExcusesUnusable excused

/-- What `q` finds otherwise than `p` is excused. An object without a usable designation is a fault
under `p`, unless the two profiles treat it alike. -/
structure Profile.Precedes (excused : Fault → Prop) (p q : Profile) : Prop where
  check : ∀ {c c' : String} (header : Dict) {rule : Rule}, Interchangeable excused c c' →
    rule.isTimely = true →
    AgreeUpTo excused Eq (rule.check p c header) (rule.check q c' header)
  mode : p.mode = q.mode ∨ p.mode = .strict ∧ ExcusesUnusable excused

theorem Profile.Precedes.refl (p : Profile) : Profile.Precedes excused p p :=
  ⟨fun header rule h _ => Rule.check_agree (.refl p header rule h), .inl rfl⟩

/-- Two ways of entering agree on every entry that is judged by rules of the grammar. -/
def Enter.AgreeUpTo (excused : Fault → Prop) (enter enter' : Enter) : Prop :=
  ∀ ⦃site site' : Site⦄ (entry : Entry) ⦃schema : Schema⦄, Interchangeable excused site site' →
    (∀ rule ∈ schema.rules, rule.isTimely = true) →
    Inquiry.AgreeUpTo excused Eq (enter site entry schema) (enter' site' entry schema)

namespace Profile.Precedes

theorem checkTable (h : Precedes excused p q) {table : RuleTable}
    (htable : ∀ rule ∈ table.rules, rule.isTimely = true) (header : Dict) :
    AgreeUpTo excused Eq (table.check p header) (table.check q header) :=
  AgreeUpTo.forM fun rule hrule =>
    (h.check header (.refl _) (htable rule hrule)).bind_eq fun _ => .refl _

theorem checkClause (h : Precedes excused p q) (he : Enter.AgreeUpTo excused enter enter')
    {c c' : String} (hc : Interchangeable excused c c') (header : Dict) {clause : Clause}
    (hclause : ∀ rule ∈ clause.allRules, rule.isTimely = true) :
    AgreeUpTo excused Eq (clause.check p enter c header) (clause.check q enter' c' header) := by
  have hcheck (rule : Rule) (hrule : rule ∈ clause.rules) :
      AgreeUpTo excused Eq (rule.check p c header) (rule.check q c' header) :=
    h.check header hc (hclause rule (Clause.mem_allRules_of_mem_rules hrule))
  have htable (rule : Rule) (hrule : rule ∈ clause.tableRules) : rule.isTimely = true :=
    hclause rule (Clause.mem_allRules_of_mem_tableRules hrule)
  have hsite (key : String) : Interchangeable excused (⟨c, key⟩ : Site) ⟨c', key⟩ :=
    hc.map (Site.mk · key)
  cases clause with
  | obey rule => exact (hcheck rule (by simp [Clause.rules])).bind_eq fun _ => .refl _
  | inspect rule table =>
    refine (hcheck rule (by simp [Clause.rules])).bind_eq fun found? => ?_
    cases found?.bind (·.value.header?) with
    | none => exact .refl _
    | some inner => exact h.checkTable htable inner
  | enter rule schema =>
    refine (hcheck rule (by simp [Clause.rules])).bind_eq fun found? => ?_
    cases found? with
    | none => exact .refl _
    | some entry =>
      by_cases hk : entry.value.kind = schema.kind
      · simpa only [if_pos hk] using he entry (hsite rule.key) htable
      · simpa only [if_neg hk] using .refl _
  | enterWith rule companion label schema =>
    refine (hcheck rule (by simp [Clause.rules])).bind_eq fun found? => ?_
    refine (hcheck companion (by simp [Clause.rules])).bind_eq fun companion? => ?_
    cases found? with
    | none => exact .refl _
    | some entry =>
      cases companion? with
      | none => exact .failAt (hsite companion.key) fun site => .missingCompanion site rule.key
      | some _ => exact he entry (.refl _) htable
  | empty rule reason =>
    refine (hcheck rule (by simp [Clause.rules])).bind_eq fun found? => ?_
    cases found? with
    | none => exact .refl _
    | some entry => exact .requireAt (hsite rule.key) _ fun site => .constraint site reason
  | absent rule reason =>
    refine (hcheck rule (by simp [Clause.rules])).bind_eq fun found? => ?_
    cases found? with
    | none => exact .refl _
    | some entry => exact .failAt (hsite rule.key) fun site => .constraint site reason
  | exclude first second =>
    refine (hcheck first (by simp [Clause.rules])).bind_eq fun _ => ?_
    refine (hcheck second (by simp [Clause.rules])).bind_eq fun _ => ?_
    exact .requireAt hc _ fun container => .conflict container first.key second.key
  | never key reason => exact .failAt (hsite key) fun site => .constraint site reason

theorem checkClauses (h : Precedes excused p q) (he : Enter.AgreeUpTo excused enter enter')
    {c c' : String} (hc : Interchangeable excused c c') (header : Dict) {clauses : List Clause}
    (hclauses : ∀ rule ∈ clauses.flatMap Clause.allRules, rule.isTimely = true) :
    AgreeUpTo excused Eq (clauses.forM (Clause.check p enter c header))
      (clauses.forM (Clause.check q enter' c' header)) :=
  AgreeUpTo.forM fun clause hclause => h.checkClause he hc header fun rule hrule =>
    hclauses rule (List.mem_flatMap.mpr ⟨clause, hclause, hrule⟩)

theorem checkSheet (h : Precedes excused p q) (he : Enter.AgreeUpTo excused enter enter')
    {sheet : Sheet} (hsheet : ∀ rule ∈ sheet.allRules, rule.isTimely = true) (header : Dict) :
    AgreeUpTo excused Eq (sheet.check p enter header) (sheet.check q enter' header) :=
  h.checkClauses he (.refl _) header hsheet

theorem judgeImage (h : Precedes excused p q) (he : Enter.AgreeUpTo excused enter enter')
    (use : ImageUse) (header : Dict) :
    AgreeUpTo excused Eq (judgeImage p enter use header) (judgeImage q enter' use header) := by
  refine (h.checkTable (Grammar.isTimely_imageHead use) header).bind_eq fun _ => ?_
  refine (h.check header (.refl _) rfl).bind_eq fun mask? => ?_
  exact h.checkSheet he (Grammar.isTimely_image use _) header

theorem settle (h : Precedes excused p q) (hint : Hint) (header : Dict) (declared : Designation) :
    AgreeUpTo excused (Designation.AgreeUpTo excused) (settle p hint header declared)
      (settle q hint header declared) := by
  have alike (heq : PdfConformance.settle p hint header declared =
      PdfConformance.settle q hint header declared) :
      AgreeUpTo excused (Designation.AgreeUpTo excused)
        (PdfConformance.settle p hint header declared)
        (PdfConformance.settle q hint header declared) :=
    (AgreeUpTo.of_eq heq).mono fun _ _ => .inl
  rcases h.mode with hmode | ⟨hstrict, hexcused⟩
  · exact alike (by simp only [PdfConformance.settle, hmode])
  · cases hu : declared.isUsable with
    | true => exact alike (by simp [PdfConformance.settle, hu])
    | false =>
      have hc := Designation.contradicts_eq_false hu hint
      have hp : PdfConformance.settle p hint header declared = .done declared := by
        simp [PdfConformance.settle, hstrict, hc, Inquiry.require]
      obtain ⟨other, hq⟩ : ∃ d, PdfConformance.settle q hint header declared = .done d := by
        simp only [PdfConformance.settle, hu, hc]
        split
        · exact ⟨_, rfl⟩
        · exact ⟨_, rfl⟩
      rw [hp, hq]
      exact .done (.inr ⟨hu, hexcused⟩)

theorem designate (h : Precedes excused p q) (hint : Hint) (header : Dict) :
    AgreeUpTo excused (Designation.AgreeUpTo excused) (designate p hint header)
      (designate q hint header) := by
  refine (h.check header (.refl _) rfl).bind_eq fun _ => ?_
  exact (h.check header (.refl _) rfl).bind_eq fun _ => h.settle hint header _

theorem judgeExternal (h : Precedes excused p q) (he : Enter.AgreeUpTo excused enter enter')
    (hint : Hint) (header : Dict) :
    AgreeUpTo excused Eq (judgeExternal p enter hint header)
      (judgeExternal q enter' hint header) := by
  refine (h.designate hint header).bind fun a b hab => ?_
  rcases hab with rfl | ⟨hu, hmissing, hunknown⟩
  · cases a with
    | form => exact h.checkSheet he Grammar.isTimely_form header
    | image => exact h.judgeImage he .primary header
    | postScript => exact .refl _
    | unknown subtype => exact .refl _
    | untagged => exact .refl _
  -- the first profile makes a fault of the designation, whatever the second takes the object for
  · cases a with
    | form => cases hu
    | image => cases hu
    | postScript => cases hu
    | unknown subtype => exact .excused _ (hunknown subtype)
    | untagged => exact .excused _ hmissing

theorem judgeAlternate (he : Enter.AgreeUpTo excused enter enter') (item : Object) :
    AgreeUpTo excused Eq (judgeAlternate enter item) (judgeAlternate enter' item) := by
  refine (AgreeUpTo.refl _).bind_eq fun value? => ?_
  rcases value? with _ | value
  · exact .refl _
  · cases value with
    | stream header => exact he _ (.refl _) (by simp [Schema.rules])
    | dictionary entries => exact he _ (.refl _) (by simp [Schema.rules])
    | _ => exact .refl _

theorem judgeMember (he : Enter.AgreeUpTo excused enter enter') (member : Bytes × Object) :
    AgreeUpTo excused Eq (judgeMember enter member) (judgeMember enter' member) := by
  refine (AgreeUpTo.refl _).bind_eq fun value? => ?_
  rcases value? with _ | value
  · exact .refl _
  · cases value with
    | stream header => exact he _ (.refl _) (by simp [Schema.rules])
    | _ => exact .refl _

theorem judgePiece (h : Precedes excused p q) (piece : Bytes × Object) :
    AgreeUpTo excused Eq (judgePiece p piece) (judgePiece q piece) := by
  refine (AgreeUpTo.refl _).bind_eq fun value => ?_
  cases value with
  | dictionary data => exact h.checkTable Grammar.isTimely_pieceData data
  | _ => exact .refl _

theorem judgePrepress (he : Enter.AgreeUpTo excused enter enter') (entries : Dict) :
    AgreeUpTo excused Eq (judgePrepress enter entries) (judgePrepress enter' entries) := by
  match entries with
  | [] => exact .refl _
  | [(version, stored)] =>
    simp only [PdfConformance.judgePrepress]
    cases htable : Grammar.prepressTable? (Text.Utf8.decodeLossy version) with
    | none => exact .refl _
    | some table =>
      refine (AgreeUpTo.refl _).bind_eq fun value => ?_
      cases value with
      | dictionary _ => exact he _ (.refl _) (Grammar.isTimely_prepressTable htable)
      | _ => exact .refl _
  | _ :: _ :: _ => exact .refl _

/-- Judging agrees where its parts do. -/
theorem judge (h : Precedes excused p q) (he : Enter.AgreeUpTo excused enter enter')
    {schema : Schema} (hschema : ∀ rule ∈ schema.rules, rule.isTimely = true) (value : Object) :
    AgreeUpTo excused Eq (judge p enter schema value) (judge q enter' schema value) := by
  cases schema with
  | external hint =>
    cases value with
    | stream header => exact h.judgeExternal he hint header
    | _ => exact .refl _
  | image use =>
    cases value with
    | stream header => exact h.judgeImage he use header
    | _ => exact .refl _
  | alternates =>
    cases value with
    | array items => exact AgreeUpTo.forM fun item _ => judgeAlternate he item
    | _ => exact .refl _
  | alternateImage =>
    cases value with
    | dictionary entries => exact h.checkSheet he Grammar.isTimely_alternateImage entries
    | _ => exact .refl _
  | resources =>
    cases value with
    | dictionary entries => exact h.checkSheet he Grammar.isTimely_resources entries
    | _ => exact .refl _
  | externals =>
    cases value with
    | dictionary entries => exact AgreeUpTo.forM fun member _ => judgeMember he member
    | _ => exact .refl _
  | pieceInfo =>
    cases value with
    | dictionary entries => exact AgreeUpTo.forM fun piece _ => h.judgePiece piece
    | _ => exact .refl _
  | prepress =>
    cases value with
    | dictionary entries => exact judgePrepress he entries
    | _ => exact .refl _
  | table table =>
    cases value with
    | dictionary entries => exact h.checkTable hschema entries
    | _ => exact .refl _
  | barred site reason => cases value <;> exact .refl _

theorem deeper (h : Precedes excused p q) (levels : Nat) (trail : Trail) :
    Enter.AgreeUpTo excused (deeper p levels trail) (deeper q levels trail) := by
  induction levels generalizing trail with
  | zero =>
    intro site site' entry schema hsite _
    exact .failAt hsite fun site => trail.stop site entry.stored
  | succ levels ih =>
    intro site site' entry schema hsite hschema
    simp only [PdfConformance.deeper]
    split
    · exact .failAt hsite fun site => trail.stop site entry.stored
    · exact h.judge (ih (trail.push entry.stored)) hschema entry.value

end Profile.Precedes

/-- With more levels to go an entry is judged the same, until the fewer are used up. -/
theorem Enter.AgreeUpTo.of_levels_le (p : Profile) {levels levels' : Nat} (hle : levels ≤ levels')
    (hdepth : ∀ site id? depth, excused (.endless site id? depth .depth)) (trail : Trail) :
    Enter.AgreeUpTo excused (deeper p levels trail) (deeper p levels' trail) := by
  induction levels generalizing levels' trail with
  | zero =>
    -- a circle is reported whatever levels are left
    intro site site' entry schema hsite _
    cases hr : trail.revisits entry.stored with
    | false =>
      simp only [deeper, Trail.stop, hr, Bool.false_eq_true, if_false]
      exact .excused _ (hdepth _ _ _)
    | true =>
      have hstop : Inquiry.AgreeUpTo excused (Eq : Unit → Unit → Prop)
          (.fail (trail.stop site entry.stored)) (.fail (trail.stop site' entry.stored)) :=
        .failAt hsite fun site => trail.stop site entry.stored
      cases levels' with
      | zero => exact hstop
      | succ levels' => simpa only [deeper, hr, if_true] using hstop
  | succ levels ih =>
    obtain ⟨more, rfl⟩ : ∃ n, levels' = n + 1 := ⟨levels' - 1, by omega⟩
    intro site site' entry schema hsite hschema
    simp only [deeper]
    split
    · exact .failAt hsite fun site => trail.stop site entry.stored
    · exact (Profile.Precedes.refl p).judge (ih (by omega) (trail.push entry.stored)) hschema
        entry.value

@[simp] theorem Trail.revisits_reference (trail : Trail) (id : ObjectId) :
    trail.revisits (.reference id) = decide (id ∈ trail.within) := by
  simp [revisits, Object.reference?]

theorem Trail.mem_within_push {trail : Trail} {stored : Object} {id : ObjectId} :
    id ∈ (trail.push stored).within ↔ stored = .reference id ∨ id ∈ trail.within := by
  cases stored with
  | reference other => simp [push, Object.reference?, eq_comm]
  | _ => simp [push, Object.reference?]

/-- What is not being judged already on the longer trail is not on the shorter one. -/
theorem Trail.revisits_eq_false_of_subset {trail trail' : Trail}
    (hsubset : trail'.within ⊆ trail.within) {stored : Object}
    (h : trail.revisits stored = false) : trail'.revisits stored = false := by
  cases stored with
  | reference id =>
    have hnot : id ∉ trail.within := by simpa using h
    have hnot' : id ∉ trail'.within := fun hid => hnot (hsubset hid)
    simpa using hnot'
  | _ => rfl

theorem Trail.push_subset {trail trail' : Trail} (hsubset : trail'.within ⊆ trail.within)
    (stored : Object) : (trail'.push stored).within ⊆ (trail.push stored).within :=
  List.append_subset.mpr ⟨List.subset_append_left _ _,
    List.subset_append_of_subset_right _ hsubset⟩

/-- On a shorter trail, and with more levels to go, an entry is judged the same, until the walk on
the longer one is refused to go on. The places that refusals are put to do not matter. -/
theorem agree_deeper_of_subset (p : Profile) {levels levels' : Nat} (hle : levels ≤ levels')
    {trail trail' : Trail} (hsubset : trail'.within ⊆ trail.within)
    (hendless : ∀ site id? depth bound, excused (.endless site id? depth bound))
    (site site' : Site) (entry : Entry) {schema : Schema}
    (hschema : ∀ rule ∈ schema.rules, rule.isTimely = true) :
    AgreeUpTo excused Eq (deeper p levels trail site entry schema)
      (deeper p levels' trail' site' entry schema) := by
  induction levels generalizing levels' trail trail' site site' entry schema with
  | zero => exact .excused _ (hendless _ _ _ _)
  | succ levels ih =>
    obtain ⟨more, rfl⟩ : ∃ n, levels' = n + 1 := ⟨levels' - 1, by omega⟩
    cases hrevisits : trail.revisits entry.stored with
    | true =>
      rw [deeper, if_pos hrevisits]
      exact .excused _ (hendless _ _ _ _)
    | false =>
      have hrevisits' := Trail.revisits_eq_false_of_subset hsubset hrevisits
      rw [deeper, deeper, hrevisits, hrevisits']
      refine (Profile.Precedes.refl p).judge ?_ hschema entry.value
      intro site site' inner schema _ hinner
      exact ih (by omega) (Trail.push_subset hsubset entry.stored) site site' inner hinner

theorem Enter.AgreeUpTo.of_subset (p : Profile) {levels levels' : Nat} (hle : levels ≤ levels')
    {trail trail' : Trail} (hsubset : trail'.within ⊆ trail.within)
    (hendless : ∀ site id? depth bound, excused (.endless site id? depth bound)) :
    Enter.AgreeUpTo excused (deeper p levels trail) (deeper p levels' trail') :=
  fun site site' entry _ _ hschema =>
    agree_deeper_of_subset p hle hsubset hendless site site' entry hschema

/-- The fault of a walk that would not end. -/
def Fault.IsEndless (fault : Fault) : Prop :=
  ∃ site id? depth bound, fault = .endless site id? depth bound

theorem isEndless_stop (trail : Trail) (site : Site) (stored : Object) :
    (trail.stop site stored).IsEndless :=
  ⟨_, _, _, _, rfl⟩

/-- The verdict is that of a walk that would not end. -/
def Overruns (verdict : Except Fault Unit) : Prop :=
  ∃ fault : Fault, verdict = .error fault ∧ fault.IsEndless

end PdfConformance

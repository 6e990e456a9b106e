import PdfConformance.Judgement
import PdfConformance.Proofs.Judgement.Descent
import PdfConformance.Proofs.Rule.Likeness

/-! # Judgements in two documents

Judging an object is mirrored by judging one that is alike: first every routine, for any two ways of
entering that mirror each other on what both objects lead to, and from that the walk itself, by
induction on the levels that are left. A `Likeness` says for that how the trails of the two walks
correspond, and a `Guide` which values they may come to together. -/

namespace PdfConformance

/-- The members of a collection are judged one after the other, in their order. -/
def Schema.isCollection : Schema → Bool
  | externals | pieceInfo => true
  | _ => false

namespace Likeness

variable {l : Likeness} {p : Profile} {enter enter' : Enter} {header header' : Dict}
  {stored stored' value value' : Object}

theorem Values.isTrue_eq (h : l.Values value value') : value'.isTrue = value.isTrue := by
  cases h <;> rfl

theorem Values.isEmptyArray_eq (h : l.Values value value') :
    value'.isEmptyArray = value.isEmptyArray := by
  cases h with
  | array hitems => cases hitems <;> rfl
  | _ => rfl

theorem Values.header? (h : l.Values value value') :
    Option.Rel l.arranged value.header? value'.header? := by
  cases h with
  | dictionary hentries => exact .some hentries
  | stream hentries _ => exact .some hentries
  | _ => exact .none

/-- Entering entries that are alike is mirrored by entering in the other way, where both containers
lead to their values in the same place. -/
def Enters (l : Likeness) (enter enter' : Enter) (leads leads' : Slot → Schema → Object → Prop) :
    Prop :=
  ∀ (site : Site) (slot : Slot) ⦃entry entry' : Entry⦄ ⦃schema : Schema⦄,
    l.LikeEntry entry entry' → (∀ rule ∈ schema.rules, rule.demand.readsFilters = false) →
    leads slot schema entry.value → leads' slot schema entry'.value →
    l.Mirrors Eq (enter site entry schema) (enter' site entry' schema)

theorem Enters.mono {leads leads' narrow narrow' : Slot → Schema → Object → Prop}
    (he : l.Enters enter enter' leads leads')
    (h : ∀ slot schema part, narrow slot schema part → leads slot schema part)
    (h' : ∀ slot schema part, narrow' slot schema part → leads' slot schema part) :
    l.Enters enter enter' narrow narrow' := by
  intro site slot entry entry' schema hentry hrules hleads hleads'
  exact he site slot hentry hrules (h slot schema _ hleads) (h' slot schema _ hleads')

namespace Coherent

theorem checkClause (hl : l.Coherent) (container : String) (h : l.arranged header header')
    {clause : Clause}
    (he : l.Enters enter enter' (clause.Leads l.find header) (clause.Leads l.find' header'))
    (hrules : ∀ rule ∈ clause.rules, SameDemand p header header' rule)
    (htable : ∀ rule ∈ clause.tableRules, rule.demand.readsFilters = false) :
    l.Mirrors Eq (clause.check p enter container header)
      (clause.check p enter' container header') := by
  have hcheck (rule : Rule) (hrule : rule ∈ clause.rules) :
      l.Mirrors (Option.Rel l.LikeEntry) (rule.check p container header)
        (rule.check p container header') := hl.check p container h (hrules rule hrule)
  cases clause with
  | obey rule =>
    apply (hcheck rule (by simp [Clause.rules])).bind
    intro _ _ _
    exact .done rfl
  | inspect rule table =>
    apply (hcheck rule (by simp [Clause.rules])).bind
    intro found? found?' hfound
    cases hfound with
    | none => exact .done rfl
    | @some entry entry' hentry =>
      have hheader := hentry.value.header?
      simp only [Option.bind_some]
      generalize entry.value.header? = inner? at hheader ⊢
      generalize entry'.value.header? = inner?' at hheader ⊢
      cases hheader with
      | none => exact .done rfl
      | some hinner =>
        exact hl.checkTable p hinner fun rule hrule => .of_readsFilters (htable rule hrule) p _ _
  | enter rule schema =>
    apply (hcheck rule (by simp [Clause.rules])).bind_run
    intro found? found?' hrun hrun' hfound
    cases hfound with
    | none => exact .done rfl
    | @some entry entry' hentry =>
      have hsame := hentry.value.kind_eq
      by_cases hkind : entry.value.kind = schema.kind
      · have hleads := Clause.Leads.enter (Rule.yields_of_run hrun) hkind
        have hleads' := Clause.Leads.enter (Rule.yields_of_run hrun') (hsame.trans hkind)
        simpa only [hsame, if_pos hkind] using he _ _ hentry htable hleads hleads'
      · simp only [hsame, if_neg hkind]
        exact .done rfl
  | enterWith rule companion label schema =>
    apply (hcheck rule (by simp [Clause.rules])).bind_run
    intro found? found?' hrun hrun' hfound
    apply (hcheck companion (by simp [Clause.rules])).bind
    intro companion? companion?' hcompanion
    cases hfound with
    | none => exact .done rfl
    | some hentry =>
      cases hcompanion with
      | none => exact hl.fail _ rfl
      | some _ =>
        exact he _ _ hentry htable (.enterWith (Rule.yields_of_run hrun))
          (.enterWith (Rule.yields_of_run hrun'))
  | empty rule reason =>
    apply (hcheck rule (by simp [Clause.rules])).bind
    intro found? found?' hfound
    cases hfound with
    | none => exact .done rfl
    | some hentry => exact hl.require hentry.value.isEmptyArray_eq _ rfl
  | absent rule reason =>
    apply (hcheck rule (by simp [Clause.rules])).bind
    intro found? found?' hfound
    cases hfound with
    | none => exact .done rfl
    | some _ => exact hl.fail _ rfl
  | exclude first second =>
    apply (hcheck first (by simp [Clause.rules])).bind
    intro first? first?' hfirst
    apply (hcheck second (by simp [Clause.rules])).bind
    intro second? second?' hsecond
    refine hl.require ?_ _ rfl
    cases hfirst <;> cases hsecond <;> rfl
  | never key reason => exact hl.fail _ rfl

/-- Two containers are checked alike by a sheet that makes the same demands of both, if it applies to
values that lead to what is entered. -/
theorem checkSheet (hl : l.Coherent) {schema : Schema} {sheet : Sheet}
    (happlies : schema.Applies l.find p value sheet header)
    (happlies' : schema.Applies l.find' p value' sheet header')
    (he : l.Enters enter enter' (schema.Leads l.find p value) (schema.Leads l.find' p value'))
    (h : l.arranged header header')
    (hrules : ∀ rule ∈ sheet.rules, SameDemand p header header' rule)
    (htables : ∀ rule ∈ sheet.tableRules, rule.demand.readsFilters = false) :
    l.Mirrors Eq (sheet.check p enter header) (sheet.check p enter' header') := by
  apply Mirrors.forM_same
  intro clause hclause
  apply hl.checkClause sheet.container h
  · exact he.mono (fun _ _ _ => .clause happlies hclause) fun _ _ _ => .clause happlies' hclause
  · intro rule hrule
    exact hrules rule (List.mem_flatMap.mpr ⟨clause, hclause, hrule⟩)
  · intro rule hrule
    exact htables rule (List.mem_flatMap.mpr ⟨clause, hclause, hrule⟩)

theorem judgeImage (hl : l.Coherent) (use : ImageUse)
    (he : l.Enters enter enter' (Schema.Leads l.find p (.image use) (.stream header))
      (Schema.Leads l.find' p (.image use) (.stream header')))
    (h : l.arranged header header') (hfilters : SameFilters header header') :
    l.Mirrors Eq (judgeImage p enter use header) (judgeImage p enter' use header') := by
  have hdemand (rule : Rule) : SameDemand p header header' rule := .of_filters hfilters p rule
  apply (hl.checkTable p h fun rule _ => hdemand rule).bind_eq
  intro _
  apply (hl.check p use.container h (hdemand Grammar.imageMask)).bind_run
  intro mask? mask?' hrun hrun' hmask
  have hstencil : mask?'.any (·.value.isTrue) = mask?.any (·.value.isTrue) := by
    cases hmask with
    | none => rfl
    | some hentry => exact hentry.value.isTrue_eq
  have hyields' := stencil_iff_yields hrun'
  rw [hstencil] at hyields' ⊢
  exact hl.checkSheet (.image (stencil_iff_yields hrun)) (.image hyields') he h
    (fun rule _ => hdemand rule) (Grammar.readsFilters_tables_image use _)

theorem settle (hl : l.Coherent) (hint : Hint) (h : l.arranged header header')
    (declared : Designation) :
    l.Mirrors Eq (settle p hint header declared) (settle p hint header' declared) := by
  have hinfer : Designation.infer header' hint = Designation.infer header hint := by
    cases hint with
    | any => simp only [Designation.infer, hl.has_eq h]
    | form => rfl
    | image => rfl
  unfold PdfConformance.settle
  split
  · rw [hinfer]
    exact .done rfl
  · apply (hl.require rfl _ rfl).bind_eq
    intro _
    exact .done rfl

theorem designate (hl : l.Coherent) (hint : Hint) (h : l.arranged header header')
    (hfilters : SameFilters header header') :
    l.Mirrors Eq (designate p hint header) (designate p hint header') := by
  have hdemand (rule : Rule) : SameDemand p header header' rule := .of_filters hfilters p rule
  apply (hl.check p Grammar.external h (hdemand Grammar.externalType)).bind
  intro _ _ _
  apply (hl.check p Grammar.external h (hdemand Grammar.externalSubtype)).bind
  intro subtype? subtype?' hsubtype
  have hdeclared : subtype?'.bind (·.value.nameText?) = subtype?.bind (·.value.nameText?) := by
    cases hsubtype with
    | none => rfl
    | some hentry => exact hentry.value.nameText?_eq
  rw [hdeclared]
  exact hl.settle hint h _

theorem judgeExternal (hl : l.Coherent) (hint : Hint)
    (he : l.Enters enter enter' (Schema.Leads l.find p (.external hint) (.stream header))
      (Schema.Leads l.find' p (.external hint) (.stream header')))
    (h : l.arranged header header') (hfilters : SameFilters header header') :
    l.Mirrors Eq (judgeExternal p enter hint header) (judgeExternal p enter' hint header') := by
  apply (hl.designate hint h hfilters).bind_run
  rintro designation _ hrun hrun' rfl
  cases designation with
  | form =>
    exact hl.checkSheet (.form hrun) (.form hrun') he h
      (fun rule _ => .of_filters hfilters p rule) Grammar.readsFilters_tables_form
  | image =>
    refine hl.judgeImage .primary (he.mono ?_ ?_) h hfilters
    · exact fun _ _ _ => .designated hrun
    · exact fun _ _ _ => .designated hrun'
  | postScript => exact hl.fail _ rfl
  | unknown subtype => exact hl.fail _ rfl
  | untagged => exact hl.fail _ rfl

theorem judgeAlternate (hl : l.Coherent) {items items' : List Object}
    (he : l.Enters enter enter' (Schema.Leads l.find p .alternates (.array items))
      (Schema.Leads l.find' p .alternates (.array items')))
    {index : Nat} (hitem : items[index]? = some stored) (hitem' : items'[index]? = some stored')
    (h : l.alike stored stored') :
    l.Mirrors Eq (judgeAlternate enter stored) (judgeAlternate enter' stored') := by
  apply (hl.valueIfAny _ false h).bind_run
  intro value? value?' hrun hrun' hvalue?
  cases hvalue? with
  | none => exact .done rfl
  | some hvalue =>
    obtain ⟨hstands, -⟩ := stands_of_run_valueIfAny hrun
    obtain ⟨hstands', -⟩ := stands_of_run_valueIfAny hrun'
    cases hvalue with
    | stream hentries hfilters =>
      exact he _ _ ⟨h, .stream hentries hfilters⟩ (by simp [Schema.rules])
        (.alternateStream hitem hstands) (.alternateStream hitem' hstands')
    | dictionary hentries =>
      exact he _ _ ⟨h, .dictionary hentries⟩ (by simp [Schema.rules])
        (.alternateDictionary hitem hstands) (.alternateDictionary hitem' hstands')
    | _ => exact hl.fail _ rfl

theorem judgeAlternates (hl : l.Coherent) {items items' : List Object}
    (he : l.Enters enter enter' (Schema.Leads l.find p .alternates (.array items))
      (Schema.Leads l.find' p .alternates (.array items')))
    (h : List.Forall₂ l.alike items items') :
    l.Mirrors Eq (items.forM (PdfConformance.judgeAlternate enter))
      (items'.forM (PdfConformance.judgeAlternate enter')) := by
  apply Mirrors.forM
  rw [List.forall₂_iff_get] at h ⊢
  refine ⟨h.1, fun index hlt hlt' => ?_⟩
  exact hl.judgeAlternate he (List.getElem?_eq_getElem hlt) (List.getElem?_eq_getElem hlt')
    (h.2 index hlt hlt')

theorem judgeMember (hl : l.Coherent)
    (he : l.Enters enter enter' (Schema.Leads l.find p .externals (.dictionary header))
      (Schema.Leads l.find' p .externals (.dictionary header')))
    {key : Bytes} (hmem : (key, stored) ∈ header) (hmem' : (key, stored') ∈ header')
    (h : l.alike stored stored') :
    l.Mirrors Eq (judgeMember enter (key, stored)) (judgeMember enter' (key, stored')) := by
  apply (hl.valueIfAny _ false h).bind_run
  intro value? value?' hrun hrun' hvalue?
  cases hvalue? with
  | none => exact .done rfl
  | some hvalue =>
    obtain ⟨hstands, -⟩ := stands_of_run_valueIfAny hrun
    obtain ⟨hstands', -⟩ := stands_of_run_valueIfAny hrun'
    cases hvalue with
    | stream hentries hfilters =>
      exact he _ _ ⟨h, .stream hentries hfilters⟩ (by simp [Schema.rules])
        (.member hmem hstands) (.member hmem' hstands')
    | _ => exact hl.fail _ rfl

theorem judgePiece (hl : l.Coherent) (key : Bytes) (h : l.alike stored stored') :
    l.Mirrors Eq (judgePiece p (key, stored)) (judgePiece p (key, stored')) := by
  apply (hl.valueOf _ h).bind
  intro value value' hvalue
  cases hvalue with
  | dictionary hentries =>
    exact hl.checkTable p hentries fun rule hrule =>
      .of_readsFilters (Grammar.readsFilters_pieceData rule hrule) p _ _
  | _ => exact hl.fail _ rfl

theorem judgePrepress_of_length_ne {entries : Dict} (h : entries.length ≠ 1) :
    PdfConformance.judgePrepress enter entries =
      .fail (.malformed ⟨Grammar.prepressVersions, Grammar.prepressKey⟩ .prepressEntryCount) := by
  cases entries with
  | nil => rfl
  | cons first rest =>
    cases rest with
    | nil => exact absurd rfl h
    | cons _ _ => rfl

/-- A container with one entry corresponds to none but such with one under the same key. -/
theorem eq_singleton (hl : l.Coherent) {key : Bytes} (h : l.arranged [(key, stored)] header') :
    ∃ stored', header' = [(key, stored')] ∧ l.alike stored stored' := by
  obtain ⟨⟨key', stored'⟩, rfl⟩ := List.length_eq_one_iff.mp (hl.length_eq h)
  have hget := hl.get? h key
  rw [Dict.get?_cons, if_pos rfl, Dict.get?_cons] at hget
  by_cases heq : key = key'
  · subst heq
    rw [if_pos rfl] at hget
    cases hget with
    | some hstored => exact ⟨stored', rfl, hstored⟩
  · rw [if_neg heq] at hget
    cases hget

theorem judgePrepress (hl : l.Coherent)
    (he : l.Enters enter enter' (Schema.Leads l.find p .prepress (.dictionary header))
      (Schema.Leads l.find' p .prepress (.dictionary header')))
    (h : l.arranged header header') :
    l.Mirrors Eq (judgePrepress enter header) (judgePrepress enter' header') := by
  by_cases hone : ∃ key stored, header = [(key, stored)]
  · obtain ⟨key, stored, rfl⟩ := hone
    obtain ⟨stored', rfl, hstored⟩ := hl.eq_singleton h
    simp only [PdfConformance.judgePrepress]
    cases htable : Grammar.prepressTable? (Text.Utf8.decodeLossy key) with
    | none => exact hl.fail _ rfl
    | some table =>
      apply (hl.valueOf _ hstored).bind_run
      intro value value' hrun hrun' hvalue
      cases hvalue with
      | dictionary hentries =>
        exact he _ _ ⟨hstored, .dictionary hentries⟩ (Grammar.readsFilters_prepressTable htable)
          (.prepress htable (stands_of_run_valueOf hrun))
          (.prepress htable (stands_of_run_valueOf hrun'))
      | _ => exact hl.fail _ rfl
  · have hlength : header.length ≠ 1 := by
      intro hlength
      obtain ⟨⟨key, stored⟩, heq⟩ := List.length_eq_one_iff.mp hlength
      exact hone ⟨key, stored, heq⟩
    rw [judgePrepress_of_length_ne hlength,
      judgePrepress_of_length_ne ((hl.length_eq h).trans_ne hlength)]
    exact hl.fail _ rfl

/-- Judging is mirrored where entering is, if collections are looped over alike. -/
theorem judge (hl : l.Coherent) {schema : Schema}
    (he : l.Enters enter enter' (schema.Leads l.find p value) (schema.Leads l.find' p value'))
    (hschema : ∀ rule ∈ schema.rules, rule.demand.readsFilters = false)
    (hloops : ∀ d d', schema.isCollection = true → value = .dictionary d →
      value' = .dictionary d' → l.arranged d d' → l.Loops d d')
    (h : l.Values value value') :
    l.Mirrors Eq (judge p enter schema value) (judge p enter' schema value') := by
  cases schema with
  | external hint =>
    cases h with
    | stream hentries hfilters => exact hl.judgeExternal hint he hentries hfilters
    | _ => exact .done rfl
  | image use =>
    cases h with
    | stream hentries hfilters => exact hl.judgeImage use he hentries hfilters
    | _ => exact .done rfl
  | alternates =>
    cases h with
    | array hitems => exact hl.judgeAlternates he hitems
    | _ => exact .done rfl
  | alternateImage =>
    cases h with
    | dictionary hentries =>
      refine hl.checkSheet .alternateImage .alternateImage he hentries ?_
        Grammar.readsFilters_tables_alternateImage
      intro rule hrule
      exact .of_readsFilters (Grammar.readsFilters_alternateImage rule hrule) p _ _
    | _ => exact .done rfl
  | resources =>
    cases h with
    | dictionary hentries =>
      refine hl.checkSheet .resources .resources he hentries ?_
        Grammar.readsFilters_tables_resources
      intro rule hrule
      exact .of_readsFilters (Grammar.readsFilters_resources rule hrule) p _ _
    | _ => exact .done rfl
  | externals =>
    cases h with
    | dictionary hentries =>
      apply hloops _ _ rfl rfl rfl hentries
      intro key stored stored' hmem hmem' hstored
      exact hl.judgeMember he hmem hmem' hstored
    | _ => exact .done rfl
  | pieceInfo =>
    cases h with
    | dictionary hentries =>
      apply hloops _ _ rfl rfl rfl hentries
      intro key stored stored' _ _ hstored
      exact hl.judgePiece key hstored
    | _ => exact .done rfl
  | prepress =>
    cases h with
    | dictionary hentries => exact hl.judgePrepress he hentries
    | _ => exact .done rfl
  | table table =>
    cases h with
    | dictionary hentries =>
      exact hl.checkTable p hentries fun rule hrule => .of_readsFilters (hschema rule hrule) p _ _
    | _ => exact .done rfl
  | barred site reason =>
    cases h with
    | stream _ _ => exact hl.fail _ rfl
    | _ => exact .done rfl

end Coherent

/-- Which values two walks may come to together, judging both by one schema, where collections among
them are looped over alike. -/
structure Guide (l : Likeness) (p : Profile) where
  meets : Schema → Object → Object → Prop
  next : ∀ {schema inner : Schema} {value value' part part' : Object} {slot : Slot},
    meets schema value value' → schema.Leads l.find p value slot inner part →
    schema.Leads l.find' p value' slot inner part' → meets inner part part'
  loops : ∀ {schema : Schema} {d d' : Dict}, schema.isCollection = true →
    meets schema (.dictionary d) (.dictionary d') → l.arranged d d' → l.Loops d d'

/-- Where all collections are looped over alike, the walks may come to any values. -/
def Faithful.guide (hl : l.Faithful) (p : Profile) : l.Guide p where
  meets := fun _ _ _ => True
  next := fun _ _ _ => trivial
  loops := fun _ _ hentries => hl.loops hentries

/-- How the trails of two walks correspond: they stop at values that are alike together, with faults
that correspond, or the second stops at a circle that is excused. -/
structure Trails (l : Likeness) where
  alike : Trail → Trail → Prop
  start : alike .start .start
  stop : ∀ {trail trail' : Trail} {stored stored' : Object}, alike trail trail' →
    l.alike stored stored' →
    trail'.revisits stored' = true ∧ (∀ site, l.excused (trail'.stop site stored')) ∨
      trail'.revisits stored' = trail.revisits stored ∧
        ∀ site, l.fault (trail.stop site stored) (trail'.stop site stored')
  push : ∀ {trail trail' : Trail} {stored stored' : Object}, alike trail trail' →
    l.alike stored stored' → alike (trail.push stored) (trail'.push stored')

/-- With the same number of levels to go, on trails that correspond, entries that are alike are
judged alike, if the walks may come to their values. -/
theorem Coherent.deeper (hl : l.Coherent) (t : l.Trails) (g : l.Guide p) (levels : Nat)
    {trail trail' : Trail} (h : t.alike trail trail') (site : Site) {entry entry' : Entry}
    {schema : Schema} (hentry : l.LikeEntry entry entry')
    (hschema : ∀ rule ∈ schema.rules, rule.demand.readsFilters = false)
    (hmeets : g.meets schema entry.value entry'.value) :
    l.Mirrors Eq (deeper p levels trail site entry schema)
      (deeper p levels trail' site entry' schema) := by
  induction levels generalizing trail trail' site entry entry' schema with
  | zero =>
    rcases t.stop h hentry.stored with ⟨_, hexcused⟩ | ⟨_, hfault⟩
    · exact .excused (hexcused site) _
    · exact .error (hfault site)
  | succ levels ih =>
    rcases t.stop h hentry.stored with ⟨hrevisits, hexcused⟩ | ⟨hrevisits, hfault⟩
    · rw [PdfConformance.deeper, PdfConformance.deeper, if_pos hrevisits]
      exact .excused (hexcused site) _
    · rw [PdfConformance.deeper, PdfConformance.deeper, hrevisits]
      split
      · exact .error (hfault site)
      · refine hl.judge ?_ hschema ?_ hentry.value
        · intro site slot part part' inner hpart hinner hleads hleads'
          exact ih (t.push h hentry.stored) site hpart hinner (g.next hmeets hleads hleads')
        · intro d d' hcollection hvalue hvalue' hentries
          rw [hvalue, hvalue'] at hmeets
          exact g.loops hcollection hmeets hentries

end Likeness

end PdfConformance

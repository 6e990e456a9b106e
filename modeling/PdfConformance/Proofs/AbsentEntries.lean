import PdfConformance.Proofs.InferredTag

/-! # Entries that count as absent

`outcome_absentEntry`: an entry of an external object that is null, or leads to nothing, is as good as
one that has been removed. Only the fault tells them apart where the entry is required: what leads to
nothing is reported as such. The bounding box of an object is excepted where its presence alone tells
what the object is taken for. -/

namespace PdfConformance

open Inquiry

variable {find : ObjectId → Option Object} {p : Profile} {header : Dict} {hint : Hint} {c : String}
  {key : Bytes} {stored : Object} {ids : List ObjectId} {id : ObjectId} {rule : Rule}

/-- What the object is taken for is told by whether there is a bounding box. -/
def Container.ToldByBox (k : Container) (hint : Hint) : Prop :=
  k.profile.mode = .relaxed ∧ hint = .any ∧ k.LacksTag

/-- Where an entry of the object is required by its rule. -/
inductive RequiredAt (find : ObjectId → Option Object) (p : Profile) (hint : Hint)
    (header : Dict) : Site → Prop
  | intro {designation : Designation} {sheet : Sheet} {rule : Rule} :
      (designate p hint header).run find = .ok designation →
      designation.Binds find header sheet → rule ∈ sheet.rules →
      rule.isRequired p header = true →
      RequiredAt find p hint header ⟨sheet.container, rule.key⟩

/-- Instead of an entry that is required and missing what it leads to is told to be. -/
inductive Breaks (find : ObjectId → Option Object) (p : Profile) (hint : Hint) (header : Dict)
    (key : Bytes) (id : ObjectId) : Fault → Fault → Prop
  | intro {site : Site} : RequiredAt find p hint header site → Text.Utf8.encode site.key = key →
      Breaks find p hint header key id (.missingEntry site) (.dangling site id)

theorem Strays.not_isDeclaration (h : Strays find ids stored id) : ¬ stored.IsDeclaration := by
  cases h <;> simp [Object.IsDeclaration]

/-! ## Checks -/

namespace Rule

theorem isRequired_set (h : ¬ stored.IsDeclaration) (header : Dict) (key : Bytes) :
    rule.isRequired p (Dict.set header key stored) =
      rule.isRequired p (Dict.without header key) := by
  have hdemand : Likeness.SameDemand p _ _ rule :=
    .of_filters (Dict.sameFilters_without_set h header key) p rule
  exact hdemand.isRequired_eq

/-- What is checked of an entry that is null is checked of one that is not there. -/
theorem check_set_null (header : Dict) (key : Bytes) :
    rule.check p c (Dict.set header key .null) = rule.check p c (Dict.without header key) := by
  have hnull : ¬ Object.null.IsDeclaration := by simp [Object.IsDeclaration]
  by_cases hkey : Text.Utf8.encode rule.key = key
  · subst hkey
    unfold check
    rw [isRequired_set hnull, Dict.get?_set_self, Dict.get?_without_self]
    rfl
  · exact (Dict.sameBeside_without_set header key .null).check_eq
      (Dict.sameFilters_without_set hnull header key) hkey

/-- A check that comes to a required entry which leads to nothing says so, and does not say that it
is missing. -/
theorem mirrors_set_strays (hstrays : Strays find ids stored id) (hhops : ids.length ≤ maxHops)
    {turns : Fault → Fault → Prop} {excused : Fault → Prop}
    (h : Text.Utf8.encode rule.key = key → rule.isRequired p (Dict.without header key) = true →
      turns (.missingEntry ⟨c, rule.key⟩) (.dangling ⟨c, rule.key⟩ id)) :
    (Likeness.sameDocument find turns excused).Mirrors Eq
      (rule.check p c (Dict.without header key)) (rule.check p c (Dict.set header key stored)) := by
  have hl := Likeness.sameDocument_local find turns excused
  by_cases hkey : Text.Utf8.encode rule.key = key
  · subst hkey
    have hset : rule.isRequired p (Dict.set header (Text.Utf8.encode rule.key) stored) =
        rule.isRequired p (Dict.without header (Text.Utf8.encode rule.key)) :=
      isRequired_set hstrays.not_isDeclaration header _
    cases hrequired : rule.isRequired p (Dict.without header (Text.Utf8.encode rule.key)) with
    | false =>
      have hremoved : (rule.check p c (Dict.without header (Text.Utf8.encode rule.key))).run find =
          .ok none := by
        refine run_check_eq_none.mpr ⟨hrequired, fun found hfound => ?_⟩
        rw [Dict.get?_without_self] at hfound
        cases hfound
      have hlost : (rule.check p c (Dict.set header (Text.Utf8.encode rule.key) stored)).run find =
          .ok none := by
        refine run_check_eq_none.mpr ⟨hset.trans hrequired, fun found hfound => ?_⟩
        rw [Dict.get?_set_self] at hfound
        cases hfound
        exact .inr ⟨ids, id, hhops, hstrays⟩
      exact hl.of_run_eq (hlost.trans hremoved.symm)
    | true =>
      refine ⟨?_, False.elim⟩
      change Likeness.Verdicts _ Eq ((rule.check p c _).run find) ((rule.check p c _).run find)
      rw [run_check_of_get?_eq_none hrequired (Dict.get?_without_self header _),
        run_check_of_strays (hset.trans hrequired) (Dict.get?_set_self header _ _) hstrays hhops]
      exact .error (.inr (h rfl hrequired))
  · rw [(Dict.sameBeside_without_set header key stored).check_eq
      (Dict.sameFilters_without_set hstrays.not_isDeclaration header key) hkey]
    exact hl.refl _

end Rule

/-- Nothing is required of the tags of an external object. -/
theorem isRequired_tag (hrule : rule ∈ Grammar.externalTags.rules) (header : Dict) :
    rule.isRequired p header = false := by
  have hnever : ∀ rule ∈ Grammar.externalTags.rules, rule.demand = .never := by decide
  unfold Rule.isRequired
  rw [hnever rule hrule]
  exact Bool.and_false _

/-! ## Verdicts -/

section Verdicts

variable {doc : Document} {maxDepth : Nat}
  (h : key = Text.Utf8.encode "BBox" → ¬ (Container.mk doc.get? p header).ToldByBox hint)

include h

/-- The object is taken for the same without an entry as with another value of it. -/
theorem infer_set {subtype? : Option Entry}
    (hsubtype : (Grammar.externalSubtype.check p c (Dict.without header key)).run doc.get? =
      .ok subtype?)
    (husable : (Designation.declared subtype?).isUsable = false) (hrelaxed : p.mode = .relaxed) :
    Designation.infer (Dict.set header key stored) hint =
      Designation.infer (Dict.without header key) hint := by
  refine Designation.infer_eq_of_sameBeside (Dict.sameBeside_without_set header key stored) ?_
  rintro hkey rfl
  have hget : Dict.get? (Dict.without header key) (Text.Utf8.encode "Subtype") =
      Dict.get? header (Text.Utf8.encode "Subtype") := by
    refine Dict.sameBeside_without header key _ ?_
    rw [hkey]
    decide
  have hlacks := (isUsable_declared_iff hsubtype).mp husable
  exact h hkey ⟨hrelaxed, rfl, (Container.lacksTag_congr hget).mp hlacks⟩

/-- Verdicts with and without an entry correspond if the checks of all entries do. -/
theorem verdicts_set {l : Likeness} (hl : l.Local) (hfind : l.find = doc.get?)
    (htags : ∀ rule ∈ Grammar.externalTags.rules,
      l.Mirrors Eq (rule.check p Grammar.external (Dict.without header key))
        (rule.check p Grammar.external (Dict.set header key stored)))
    (hentries : ∀ designation,
      (designate p hint (Dict.without header key)).run doc.get? = .ok designation →
      ∀ sheet, designation.Binds doc.get? (Dict.without header key) sheet → ∀ rule ∈ sheet.rules,
        l.Mirrors Eq (rule.check p sheet.container (Dict.without header key))
          (rule.check p sheet.container (Dict.set header key stored))) :
    l.Verdicts Eq
      ((Question.external hint).outcome doc p maxDepth none (.stream (Dict.without header key)))
      ((Question.external hint).outcome doc p maxDepth none
        (.stream (Dict.set header key stored))) := by
  apply Question.verdicts_stream hl hfind
  · apply hl.designate
    · exact htags _ List.mem_cons_self
    · exact htags _ (List.mem_cons_of_mem _ List.mem_cons_self)
    · rw [hfind]
      exact fun _ => infer_set h
  · rwa [hfind]

theorem outcome_set_null :
    (Question.external hint).outcome doc p maxDepth none (.stream (Dict.set header key .null)) =
      (Question.external hint).outcome doc p maxDepth none
        (.stream (Dict.without header key)) := by
  have hl : (Likeness.identical doc.get?).Local := Likeness.sameDocument_local _ _ _
  have hcheck (c : String) (rule : Rule) : (Likeness.identical doc.get?).Mirrors Eq
      (rule.check p c (Dict.without header key)) (rule.check p c (Dict.set header key .null)) := by
    rw [Rule.check_set_null]
    exact hl.refl _
  refine Likeness.Verdicts.eq_of_identical (verdicts_set h hl rfl ?_ ?_)
  · intro rule _
    exact hcheck _ rule
  · intro _ _ _ _ rule _
    exact hcheck _ rule

theorem verdicts_set_strays (hstrays : Strays doc.get? ids stored id)
    (hhops : ids.length ≤ maxHops) :
    (Likeness.sameDocument doc.get? (Breaks doc.get? p hint (Dict.without header key) key id)
        fun _ => False).Verdicts Eq
      ((Question.external hint).outcome doc p maxDepth none (.stream (Dict.without header key)))
      ((Question.external hint).outcome doc p maxDepth none
        (.stream (Dict.set header key stored))) := by
  apply verdicts_set h (Likeness.sameDocument_local _ _ _) rfl
  · intro rule hrule
    apply Rule.mirrors_set_strays hstrays hhops
    intro _ hrequired
    rw [isRequired_tag hrule] at hrequired
    cases hrequired
  · intro designation hrun sheet hbinds rule hrule
    apply Rule.mirrors_set_strays hstrays hhops
    intro hkey hrequired
    exact .intro (.intro hrun hbinds hrule hrequired) hkey

end Verdicts

/-- An entry that is null or leads to nothing counts as absent: the verdict is the same as without it.
Only if it is required, and is found missing without it, what leads to nothing may be reported in its
place. -/
theorem outcome_absentEntry (doc : Document) (p : Profile) (maxDepth : Nat) (hint : Hint)
    (header : Dict) (key : Bytes)
    (h : key = Text.Utf8.encode "BBox" → ¬ (Container.mk doc.get? p header).ToldByBox hint) :
    (Question.external hint).outcome doc p maxDepth none (.stream (Dict.set header key .null)) =
        (Question.external hint).outcome doc p maxDepth none
          (.stream (Dict.without header key)) ∧
      ∀ ids stored id, ids.length ≤ 32 → Strays doc.get? ids stored id →
        (Question.external hint).outcome doc p maxDepth none
            (.stream (Dict.set header key stored)) =
          (Question.external hint).outcome doc p maxDepth none
            (.stream (Dict.without header key)) ∨
        ∃ site, RequiredAt doc.get? p hint (Dict.without header key) site ∧
          Text.Utf8.encode site.key = key ∧
          (Question.external hint).outcome doc p maxDepth none
            (.stream (Dict.without header key)) = .error (.missingEntry site) ∧
          (Question.external hint).outcome doc p maxDepth none
            (.stream (Dict.set header key stored)) = .error (.dangling site id) := by
  refine ⟨outcome_set_null h, ?_⟩
  intro ids stored id hhops hstrays
  have hverdicts : (Likeness.sameDocument doc.get?
      (Breaks doc.get? p hint (Dict.without header key) key id) fun _ => False).Verdicts Eq
      ((Question.external hint).outcome doc p maxDepth none (.stream (Dict.without header key)))
      ((Question.external hint).outcome doc p maxDepth none
        (.stream (Dict.set header key stored))) := verdicts_set_strays h hstrays hhops
  generalize (Question.external hint).outcome doc p maxDepth none
    (.stream (Dict.without header key)) = removed at hverdicts ⊢
  generalize (Question.external hint).outcome doc p maxDepth none
    (.stream (Dict.set header key stored)) = lost at hverdicts ⊢
  cases hverdicts with
  | ok hresult => exact .inl (by rw [hresult])
  | error hfault =>
    rcases hfault with hsame | hbreaks
    · exact .inl (by rw [hsame])
    · cases hbreaks with
      | intro hrequired hkey => exact .inr ⟨_, hrequired, hkey, rfl, rfl⟩
  | excused hexcused => exact hexcused.elim

/-- A form with a matrix, and a reference to an object that is not stored. -/
def sheared : Document where
  header := "1.7"
  trailer := []
  objects := .ofList [(⟨3, 0⟩, .reference ⟨9, 0⟩)]
where
  entries : Dict := [
    (Text.Utf8.encode "Subtype", .name (Text.Utf8.encode "Form")),
    (Text.Utf8.encode "BBox", .array [.integer 0, .integer 0, .integer 1, .integer 1]),
    (Text.Utf8.encode "Matrix", .array [.integer 1, .integer 0, .integer 1, .integer 1, .integer 0,
      .integer 0])]
  lacking (key : String) (stored : Object) : Object :=
    .stream (Dict.set entries (Text.Utf8.encode key) stored)

/-- It needs no matrix. Its bounding box it needs: null in that place is no box, and the reference
leads to none. -/
theorem outcome_absentEntry_sheared :
    (Question.external .any).outcome sheared ⟨.v1_7, .strict⟩ 64 none
        (sheared.lacking "Matrix" .null) = .ok () ∧
      (Question.external .any).outcome sheared ⟨.v1_7, .strict⟩ 64 none
        (sheared.lacking "Matrix" (.reference ⟨3, 0⟩)) = .ok () ∧
      (Question.external .any).outcome sheared ⟨.v1_7, .strict⟩ 64 none
        (sheared.lacking "BBox" .null) = .error (.missingEntry ⟨"formStream", "BBox"⟩) ∧
      (Question.external .any).outcome sheared ⟨.v1_7, .strict⟩ 64 none
        (sheared.lacking "BBox" (.reference ⟨3, 0⟩)) =
          .error (.dangling ⟨"formStream", "BBox"⟩ ⟨9, 0⟩) := by
  have hstrays : Strays sheared.get? [⟨3, 0⟩, ⟨9, 0⟩] (.reference ⟨3, 0⟩) ⟨9, 0⟩ :=
    .through rfl (.here (.inl rfl))
  have hremoved : (Question.external .any).outcome sheared ⟨.v1_7, .strict⟩ 64 none
      (.stream (Dict.without sheared.entries (Text.Utf8.encode "Matrix"))) = .ok () := by rfl
  obtain ⟨hnull, hlost⟩ := outcome_absentEntry sheared ⟨.v1_7, .strict⟩ 64 .any sheared.entries
    (Text.Utf8.encode "Matrix") fun hkey => absurd hkey (by decide)
  obtain ⟨hbox, -⟩ := outcome_absentEntry sheared ⟨.v1_7, .strict⟩ 64 .any sheared.entries
    (Text.Utf8.encode "BBox") fun _ hbox => nomatch hbox.1
  refine ⟨hnull.trans hremoved, ?_, hbox.trans rfl, rfl⟩
  rcases hlost _ _ _ (by decide) hstrays with hsame | ⟨site, -, -, hmissing, -⟩
  · exact hsame.trans hremoved
  · rw [hremoved] at hmissing
    cases hmissing

end PdfConformance

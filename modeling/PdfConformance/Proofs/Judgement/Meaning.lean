import PdfConformance.Proofs.Rule.Meaning

/-! # What clauses mean

Each clause asks for one thing that does not depend on the others, so that a sheet is a conjunction.
Where a clause enters the value of an entry, it asks of it what the judgement there asks, one level
deeper. -/

namespace PdfConformance

open Inquiry

variable {find : ObjectId → Option Object} {p : Profile} {enter : Enter} {c : String}
  {header : Dict} {levels : Nat} {trail : Trail} {site : Site} {schema : Schema}

/-- An entry is accepted one level deeper if the walk may go there and its value is accepted. -/
theorem run_deeper_eq_ok {entry : Entry} :
    (deeper p levels trail site entry schema).run find = .ok () ↔
      (Walk.mk levels trail).Admits entry.stored ∧
        (judge p (deeper p (levels - 1) (trail.push entry.stored)) schema entry.value).run find =
          .ok () := by
  have hrevisits : trail.revisits entry.stored = false ↔
      ∀ id, entry.stored = .reference id → id ∉ trail.within := by
    cases entry.stored <;> simp [Trail.revisits, Object.reference?]
  unfold Walk.Admits
  rw [← hrevisits]
  cases levels with
  | zero =>
    constructor
    · intro h
      cases h
    · exact fun h => absurd h.1.1 (Nat.lt_irrefl 0)
  | succ levels =>
    cases hback : trail.revisits entry.stored with
    | true =>
      rw [deeper, hback]
      constructor
      · intro h
        cases h
      · exact fun h => absurd h.1.2 (by simp)
    | false =>
      rw [deeper_of_not_revisits hback]
      exact ⟨fun h => ⟨⟨Nat.succ_pos levels, rfl⟩, h⟩, fun h => h.2⟩

theorem Sheet.run_check_iff {sheet : Sheet} : (sheet.check p enter header).run find = .ok () ↔
    ∀ clause ∈ sheet.clauses, (clause.check p enter sheet.container header).run find = .ok () :=
  run_forM_eq_ok

namespace Object

theorem kind_eq_dictionary_iff (value : Object) :
    value.kind = .dictionary ↔ ∃ entries, value = .dictionary entries := by
  refine ⟨eq_dictionary_of_kind, ?_⟩
  rintro ⟨entries, rfl⟩
  rfl

theorem kind_eq_stream_iff (value : Object) :
    value.kind = .stream ↔ ∃ header, value = .stream header := by
  refine ⟨eq_stream_of_kind, ?_⟩
  rintro ⟨header, rfl⟩
  rfl

end Object

namespace Clause

variable {rule companion : Rule} {key : String} {since : Version} {demand : Demand}
  {reason : Reason} {table : RuleTable}

theorem run_obey_iff : ((obey rule).check p enter c header).run find = .ok () ↔
    (Container.mk find p header).Obeys rule :=
  Rule.run_obey_iff

theorem run_never_iff : ((never key reason).check p enter c header).run find = .ok () ↔ False := by
  constructor
  · intro h
    cases h
  · exact False.elim

/-- What is entered is judged if it is of the schema's kind. -/
theorem run_enter_iff :
    ((Clause.enter rule schema).check p (deeper p levels trail) c header).run find = .ok () ↔
      (Container.mk find p header).Omits rule ∨ p.Permits rule.introduced ∧
        ∃ stored value, (Container.mk find p header).Usable rule.key stored value ∧
          rule.Accepts find p.mode value ∧ (value.kind = schema.kind →
            (Walk.mk levels trail).Admits stored ∧ (judge p (deeper p (levels - 1)
              (trail.push stored)) schema value).run find = .ok ()) := by
  unfold check
  rw [Rule.run_bind_eq_ok]
  refine or_congr (and_iff_left rfl) (and_congr_right fun _ => exists₂_congr fun stored value => ?_)
  refine and_congr_right fun _ => and_congr_right fun _ => ?_
  by_cases hkind : value.kind = schema.kind
  · simp only [hkind, if_true, forall_const]
    exact run_deeper_eq_ok
  · simp [hkind, run]

/-- Where a rule accepts the values of the schema's kind and no others, what is entered is judged. -/
theorem run_enter_iff_enters (hkind : ∀ value,
      rule.Accepts find p.mode value ↔ value.kind = schema.kind) :
    ((Clause.enter rule schema).check p (deeper p levels trail) c header).run find = .ok () ↔
      (Container.mk find p header).Omits rule ∨ p.Permits rule.introduced ∧
        (Container.mk find p header).Enters ⟨levels, trail⟩ rule.key fun inner value =>
          value.kind = schema.kind ∧
            (judge p (deeper p inner.levels inner.trail) schema value).run find = .ok () := by
  rw [run_enter_iff]
  refine or_congr_right (and_congr_right fun _ => exists₂_congr fun stored value => ?_)
  refine and_congr_right fun _ => ?_
  rw [hkind, ← and_left_comm]
  exact and_congr_right fun h => forall_prop_of_true h

section Containers

variable {make : Dict → Object} {kind : Kind} {Q : Walk → Container → Prop}

/-- What the judgement of a container comes to is what is asked of its entries. -/
theorem judged_iff (hmake : ∀ value : Object, value.kind = kind ↔ ∃ entries, value = make entries)
    (hQ : ∀ inner entries, (judge p (deeper p inner.levels inner.trail) schema (make entries)).run
      find = .ok () ↔ Q inner ⟨find, p, entries⟩) (inner : Walk) (value : Object) :
    value.kind = kind ∧ (judge p (deeper p inner.levels inner.trail) schema value).run find =
      .ok () ↔ ∃ entries, value = make entries ∧ Q inner ⟨find, p, entries⟩ := by
  rw [hmake]
  constructor
  · rintro ⟨⟨entries, rfl⟩, h⟩
    exact ⟨entries, rfl, (hQ inner entries).mp h⟩
  · rintro ⟨entries, rfl, h⟩
    exact ⟨⟨entries, rfl⟩, (hQ inner entries).mpr h⟩

/-- A container is inspected in place. -/
theorem run_inspect_iff
    (hmake : ∀ value : Object, value.kind = kind ↔ ∃ entries, value = make entries)
    (hheader : ∀ entries, (make entries).header? = some entries)
    (haccepts : ∀ value, rule.Accepts find p.mode value ↔ value.kind = kind) :
    ((inspect rule table).check p enter c header).run find = .ok () ↔
      (Container.mk find p header).Omits rule ∨ p.Permits rule.introduced ∧
        (Container.mk find p header).Holds rule.key fun value =>
          ∃ entries, value = make entries ∧ (table.check p entries).run find = .ok () := by
  unfold check
  rw [Rule.run_bind_eq_ok]
  refine or_congr (and_iff_left rfl) (and_congr_right fun _ => exists₂_congr fun stored value => ?_)
  refine and_congr_right fun _ => ?_
  rw [haccepts, hmake]
  constructor
  · rintro ⟨⟨entries, rfl⟩, h⟩
    rw [Option.bind_some, hheader] at h
    exact ⟨entries, rfl, h⟩
  · rintro ⟨entries, rfl, h⟩
    refine ⟨⟨entries, rfl⟩, ?_⟩
    rw [Option.bind_some, hheader]
    exact h

theorem run_enter_dictionary (hkind : schema.kind = .dictionary)
    (hQ : ∀ inner entries, (judge p (deeper p inner.levels inner.trail) schema
      (.dictionary entries)).run find = .ok () ↔ Q inner ⟨find, p, entries⟩) :
    ((Clause.enter ⟨key, .dictionary, .never, since, none⟩ schema).check p (deeper p levels trail) c
        header).run find = .ok () ↔
      (Container.mk find p header).MayEnter ⟨levels, trail⟩ since key fun inner =>
        (Container.mk find p header).Dictionary (Q inner) := by
  rw [run_enter_iff_enters, Container.omits_never]
  · simp only [hkind, judged_iff Object.kind_eq_dictionary_iff hQ]
    rfl
  · intro value
    rw [Rule.accepts_unlimited, hkind]
    exact List.mem_singleton

/-- A stream may be one that has to be there. -/
theorem run_enter_stream (hkind : schema.kind = .stream)
    (hQ : ∀ inner header, (judge p (deeper p inner.levels inner.trail) schema
      (.stream header)).run find = .ok () ↔ Q inner ⟨find, p, header⟩) :
    ((Clause.enter ⟨key, .stream, demand, since, none⟩ schema).check p (deeper p levels trail) c
        header).run find = .ok () ↔
      (Container.mk find p header).Omits ⟨key, .stream, demand, since, none⟩ ∨ p.Permits since ∧
        (Container.mk find p header).Enters ⟨levels, trail⟩ key fun inner =>
          (Container.mk find p header).Stream (Q inner) := by
  rw [run_enter_iff_enters]
  · simp only [hkind, judged_iff Object.kind_eq_stream_iff hQ]
    rfl
  · intro value
    rw [Rule.accepts_unlimited, hkind]
    exact List.mem_singleton

end Containers

/-- An entry that needs another. The site it is entered from makes no difference. -/
theorem run_enterWith_iff {label : String} (hkind : ∀ value,
      rule.Accepts find p.mode value ↔ value.kind = schema.kind) :
    ((enterWith rule companion label schema).check p (deeper p levels trail) c header).run find =
        .ok () ↔
      ((Clause.enter rule schema).check p (deeper p levels trail) c header).run find = .ok () ∧
        (Container.mk find p header).Obeys companion ∧
          ((Container.mk find p header).Absent rule.key ∨
            ¬ (Container.mk find p header).Absent companion.key) := by
  constructor
  · intro h
    obtain ⟨found?, hentry, h⟩ := exists_of_run_bind h
    obtain ⟨companion?, hcompanion, h⟩ := exists_of_run_bind h
    rw [Rule.absent_iff_of_run hentry, Rule.absent_iff_of_run hcompanion]
    refine ⟨?_, Rule.exists_run_iff.mp ⟨companion?, hcompanion⟩, ?_⟩
    · unfold check
      rw [run_bind_of_run hentry]
      cases found? with
      | none => rfl
      | some entry =>
        cases companion? with
        | none => cases h
        | some _ =>
          have hvalue := (hkind _).mp (Rule.run_check_eq_some.mp hentry).2.2
          simp only [hvalue, if_true]
          exact run_deeper_eq_ok.mpr (run_deeper_eq_ok.mp h)
    · cases found? with
      | none => exact .inl rfl
      | some _ =>
        cases companion? with
        | none => cases h
        | some _ => exact .inr Bool.false_ne_true
  · rintro ⟨henter, hobeys, hpair⟩
    obtain ⟨found?, hentry, henter⟩ := exists_of_run_bind henter
    obtain ⟨companion?, hcompanion⟩ := Rule.exists_run_iff.mpr hobeys
    rw [Rule.absent_iff_of_run hentry, Rule.absent_iff_of_run hcompanion] at hpair
    unfold check
    rw [run_bind_of_run hentry, run_bind_of_run hcompanion]
    cases found? with
    | none => cases companion? <;> rfl
    | some entry =>
      cases companion? with
      | none => simp at hpair
      | some _ =>
        have hvalue := (hkind _).mp (Rule.run_check_eq_some.mp hentry).2.2
        simp only [hvalue, if_true] at henter
        exact run_deeper_eq_ok.mpr (run_deeper_eq_ok.mp henter)

theorem run_exclude_iff {first second : Rule} :
    ((exclude first second).check p enter c header).run find = .ok () ↔
      (Container.mk find p header).Obeys first ∧ (Container.mk find p header).Obeys second ∧
        ((Container.mk find p header).Absent first.key ∨
          (Container.mk find p header).Absent second.key) := by
  constructor
  · intro h
    obtain ⟨first?, hfirst, h⟩ := exists_of_run_bind h
    obtain ⟨second?, hsecond, h⟩ := exists_of_run_bind h
    rw [Rule.absent_iff_of_run hfirst, Rule.absent_iff_of_run hsecond, ← Bool.or_eq_true]
    exact ⟨Rule.exists_run_iff.mp ⟨first?, hfirst⟩, Rule.exists_run_iff.mp ⟨second?, hsecond⟩,
      run_require_eq_ok.mp h⟩
  · rintro ⟨hfirst, hsecond, hpair⟩
    obtain ⟨first?, hfirst⟩ := Rule.exists_run_iff.mpr hfirst
    obtain ⟨second?, hsecond⟩ := Rule.exists_run_iff.mpr hsecond
    rw [Rule.absent_iff_of_run hfirst, Rule.absent_iff_of_run hsecond, ← Bool.or_eq_true] at hpair
    unfold check
    rw [run_bind_of_run hfirst, run_bind_of_run hsecond]
    exact run_require_eq_ok.mpr hpair

theorem run_absent_iff : ((absent rule reason).check p enter c header).run find = .ok () ↔
    (Container.mk find p header).Omits rule := by
  unfold check
  rw [Rule.run_bind_eq_ok]
  simp [run]

theorem run_empty_iff : ((empty rule reason).check p enter c header).run find = .ok () ↔
    (Container.mk find p header).Omits rule ∨ p.Permits rule.introduced ∧
      (Container.mk find p header).Holds rule.key fun value =>
        rule.Accepts find p.mode value ∧ value.isEmptyArray = true := by
  unfold check
  rw [Rule.run_bind_eq_ok]
  simp only [run_require_eq_ok]
  exact or_congr_left (and_iff_left rfl)

end Clause

end PdfConformance

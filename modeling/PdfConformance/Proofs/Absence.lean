import PdfConformance.Proofs.Reference

/-! # Usable values and absent ones

A stored value is usable if it resolves to a value other than null, and absent if it is null or
references lead from it to nothing. `Strays` lists the references on such a way, as `Passes` does
those on the way to a value. Chains of more than `maxHops` references, and circles, are neither:
following them is a fault. -/

namespace PdfConformance

open Inquiry

variable {find : ObjectId → Option Object} {stored value : Object} {ids : List ObjectId}
  {id : ObjectId}

/-- These references, one after the other, lead from the stored value to an id under which there is
nothing. -/
inductive Strays (find : ObjectId → Option Object) : List ObjectId → Object → ObjectId → Prop
  | here {id : ObjectId} : find id = none ∨ find id = some .null →
      Strays find [id] (.reference id) id
  | through {id last : ObjectId} {ids : List ObjectId} {stored : Object} : find id = some stored →
      Strays find ids stored last → Strays find (id :: ids) (.reference id) last

/-- The stored value resolves to a value by no more references than are followed. -/
def Resolves (find : ObjectId → Option Object) (stored value : Object) : Prop :=
  ∃ ids, ids.length ≤ maxHops ∧ Passes find ids stored value

/-- The stored value counts as absent. -/
def Object.Absent (find : ObjectId → Option Object) (stored : Object) : Prop :=
  stored = .null ∨ ∃ ids id, ids.length ≤ maxHops ∧ Strays find ids stored id

/-! ## Ways to nothing -/

/-- The objects with something stored under every id. -/
def furnished (find : ObjectId → Option Object) (id : ObjectId) : Option Object :=
  match find id with
  | none | some .null => some (.boolean true)
  | some stored => some stored

namespace Strays

/-- Were there something at its end, the way would lead there. -/
theorem passes_furnished (h : Strays find ids stored id) :
    Passes (furnished find) ids stored (.boolean true) := by
  induction h with
  | @here id hnothing =>
    refine .through ?_ (by simp) (.direct rfl)
    rcases hnothing with hnone | hnone <;> simp only [furnished, hnone]
  | @through id last ids stored hfind hrest ih =>
    cases stored with
    | reference next => exact .through (by simp only [furnished, hfind]) (by simp) ih
    | _ => cases hrest

/-- A way that ends passes no id twice. -/
theorem nodup (h : Strays find ids stored id) : ids.Nodup := h.passes_furnished.nodup

theorem astray (h : Strays find ids stored id) : Astray find stored id := by
  induction h with
  | here hnothing => exact .here hnothing
  | through hfind _ ih => exact .through hfind ih

theorem ne_null (h : Strays find ids stored id) : stored ≠ .null := by
  rintro rfl
  cases h

theorem run_follow {seen : List ObjectId} {left : Nat} (h : Strays find ids stored id)
    (hseen : ∀ other ∈ ids, other ∉ seen) (hleft : ids.length ≤ left) :
    (follow seen left stored).run find = .ok (.dangling id) := by
  induction h generalizing seen left with
  | @here id hnothing =>
    obtain ⟨left, rfl⟩ : ∃ less, left = less + 1 := Nat.exists_eq_add_of_le' hleft
    have hfirst : id ∉ seen := hseen id List.mem_cons_self
    rcases hnothing with hnone | hnone <;> simp only [follow, run, if_neg hfirst, hnone]
  | @through first last ids stored hfind hrest ih =>
    have hnodup := (Strays.through hfind hrest).nodup
    cases left with
    | zero => simp at hleft
    | succ left =>
      rw [run_follow_reference (hseen first List.mem_cons_self) hfind hrest.ne_null]
      refine ih (fun other hother hmem => ?_) (by simpa using hleft)
      rcases List.mem_cons.mp hmem with rfl | hmem
      · exact (List.nodup_cons.mp hnodup).1 hother
      · exact hseen other (List.mem_cons_of_mem first hother) hmem

end Strays

theorem strays_of_run_follow {seen : List ObjectId} {left : Nat}
    (h : (follow seen left stored).run find = .ok (.dangling id)) :
    ∃ ids, ids.length ≤ left ∧ Strays find ids stored id := by
  induction left generalizing seen stored with
  | zero => cases stored <;> cases h
  | succ left ih =>
    cases stored with
    | reference first =>
      by_cases hseen : first ∈ seen
      · simp only [follow, run, if_pos hseen] at h
        cases h
      · cases hfind : find first with
        | none =>
          simp only [follow, run, if_neg hseen, hfind] at h
          cases h
          exact ⟨[id], by simp, .here (.inl hfind)⟩
        | some next =>
          by_cases hnull : next = .null
          · subst hnull
            simp only [follow, run, if_neg hseen, hfind] at h
            cases h
            exact ⟨[id], by simp, .here (.inr hfind)⟩
          · rw [run_follow_reference hseen hfind hnull] at h
            obtain ⟨ids, hle, hstrays⟩ := ih h
            exact ⟨first :: ids, by simpa using hle, .through hfind hstrays⟩
    | _ => cases h

/-! ## What following comes to -/

theorem run_target_eq_found :
    (target stored).run find = .ok (.found value) ↔ Resolves find stored value := by
  constructor
  · exact passes_of_run_follow
  · rintro ⟨ids, hhops, hpasses⟩
    exact hpasses.run_target hhops

theorem run_target_eq_dangling : (target stored).run find = .ok (.dangling id) ↔
    ∃ ids, ids.length ≤ maxHops ∧ Strays find ids stored id := by
  constructor
  · exact strays_of_run_follow
  · rintro ⟨ids, hhops, hstrays⟩
    exact hstrays.run_follow (fun _ _ => List.not_mem_nil) hhops

theorem Resolves.stands (h : Resolves find stored value) : Stands find stored value := by
  obtain ⟨ids, -, hpasses⟩ := h
  exact hpasses.stands

/-- A usable value is not absent. -/
theorem Resolves.not_absent (h : Resolves find stored value) (hnull : value ≠ .null) :
    ¬ stored.Absent find := by
  rintro (rfl | ⟨ids, id, -, hstrays⟩)
  · exact hnull (h.stands.eq_of_direct rfl)
  · exact h.stands.not_astray hstrays.astray

theorem run_valueOf_eq_ok {site : Site} :
    (valueOf site stored).run find = .ok value ↔ Resolves find stored value := by
  rw [← run_target_eq_found]
  constructor
  · intro h
    obtain ⟨target, htarget, h⟩ := exists_of_run_bind h
    cases target with
    | found found => cases h; exact htarget
    | dangling _ => cases h
    | endless _ _ => cases h
  · intro h
    rw [valueOf, run_bind_of_run h]
    rfl

theorem run_valueIfAny_eq_some {site : Site} {required : Bool} :
    (valueIfAny site required stored).run find = .ok (some value) ↔
      Resolves find stored value ∧ value ≠ .null := by
  constructor
  · intro h
    obtain ⟨hfound, hnull⟩ := found_of_run_valueIfAny h
    exact ⟨run_target_eq_found.mp hfound, hnull⟩
  · rintro ⟨⟨ids, hhops, hpasses⟩, hnull⟩
    exact hpasses.run_valueIfAny hhops hnull site required

/-- An absent value is passed over unless it is required, when it must not lead nowhere. -/
theorem run_valueIfAny_eq_none {site : Site} {required : Bool} :
    (valueIfAny site required stored).run find = .ok none ↔
      stored = .null ∨ required = false ∧ stored.Absent find := by
  constructor
  · intro h
    cases required with
    | true => exact .inl (eq_null_of_run_valueIfAny h)
    | false =>
      refine .inr ⟨rfl, ?_⟩
      obtain ⟨target, htarget, h⟩ := exists_of_run_bind h
      cases target with
      | found found =>
        cases found with
        | null => exact .inl (stands_of_run_follow htarget).eq_null
        | _ => cases h
      | dangling id =>
        obtain ⟨ids, hstrays⟩ := run_target_eq_dangling.mp htarget
        exact .inr ⟨ids, id, hstrays⟩
      | endless _ _ => cases h
  · rintro (rfl | ⟨rfl, rfl | ⟨ids, id, hstrays⟩⟩)
    · rfl
    · rfl
    · rw [valueIfAny, run_bind_of_run (run_target_eq_dangling.mpr ⟨ids, hstrays⟩)]
      rfl

/-- Whether a value is required makes no difference unless it is absent. -/
theorem run_valueIfAny_of_not_absent (h : ¬ stored.Absent find) (site : Site)
    (required required' : Bool) :
    (valueIfAny site required stored).run find = (valueIfAny site required' stored).run find := by
  apply run_bind_congr
  intro target htarget
  cases target with
  | found value => cases value <;> rfl
  | dangling id =>
    obtain ⟨ids, hstrays⟩ := run_target_eq_dangling.mp htarget
    exact absurd (.inr ⟨ids, id, hstrays⟩) h
  | endless _ _ => rfl

end PdfConformance

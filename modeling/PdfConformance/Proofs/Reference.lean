import PdfConformance.Proofs.Inquiry.Covering
import PdfConformance.Proofs.Object.Graph
import PdfConformance.Reference

/-! # What is found by following references

A stored value stands for one value at most. Following it finds that value or gives up, wherever it
is followed from, so that a place where the value is needed covers any other. It is found if the
references on the way, which `Passes` lists, are not too many. -/

namespace PdfConformance

open Inquiry

variable {find : ObjectId → Option Object} {stored value : Object}

theorem follow_of_direct (h : value.reference? = none) (seen : List ObjectId) (left : Nat) :
    follow seen left value = .done (.found value) := by
  cases value with
  | reference id => cases h
  | _ => cases left <;> rfl

/-- One more reference is followed to what is stored. -/
theorem run_follow_reference {seen : List ObjectId} {left : Nat} {id : ObjectId}
    (hseen : id ∉ seen) (hfind : find id = some stored) (hnull : stored ≠ .null) :
    (follow seen (left + 1) (.reference id)).run find =
      (follow (id :: seen) left stored).run find := by
  simp only [follow, run, if_neg hseen, hfind]

theorem asked_follow_reference {seen : List ObjectId} {left : Nat} {id : ObjectId}
    (hseen : id ∉ seen) (hfind : find id = some stored) (hnull : stored ≠ .null) :
    (follow seen (left + 1) (.reference id)).asked find =
      id :: (follow (id :: seen) left stored).asked find := by
  simp only [follow, asked, if_neg hseen, hfind]

/-- The value at the end of these references, one after the other, the first of which is the stored
one. -/
inductive Passes (find : ObjectId → Option Object) : List ObjectId → Object → Object → Prop
  | direct {value : Object} : value.reference? = none → Passes find [] value value
  | through {id : ObjectId} {ids : List ObjectId} {stored value : Object} : find id = some stored →
      stored ≠ .null → Passes find ids stored value → Passes find (id :: ids) (.reference id) value

namespace Passes

variable {ids : List ObjectId}

theorem stands (h : Passes find ids stored value) : Stands find stored value := by
  induction h with
  | direct hdirect => exact .direct hdirect
  | through hfind hnull _ ih => exact .through hfind hnull ih

theorem unique {others : List ObjectId} {other : Object} (h : Passes find ids stored value)
    (hother : Passes find others stored other) : others = ids := by
  induction h generalizing others with
  | direct hdirect =>
    cases hother with
    | direct _ => rfl
    | through _ _ _ => cases hdirect
  | through hfind _ _ ih =>
    cases hother with
    | direct hdirect => cases hdirect
    | through hfind' _ hrest =>
      rw [hfind] at hfind'
      cases hfind'
      rw [ih hrest]

/-- From an id on the way it is not as far. -/
theorem exists_of_mem {id : ObjectId} (h : Passes find ids stored value) (hid : id ∈ ids) :
    ∃ more, more.length < ids.length ∧ Passes find (id :: more) (.reference id) value := by
  induction h with
  | direct _ => cases hid
  | @through first ids stored value hfind hnull hrest ih =>
    rcases List.mem_cons.mp hid with rfl | hid
    · exact ⟨ids, by simp, .through hfind hnull hrest⟩
    · obtain ⟨more, hlt, hmore⟩ := ih hid
      exact ⟨more, by simp; omega, hmore⟩

/-- A way that ends passes no id twice: it would go on from there as it did before. -/
theorem nodup (h : Passes find ids stored value) : ids.Nodup := by
  induction h with
  | direct _ => exact List.nodup_nil
  | @through first ids stored value hfind hnull hrest ih =>
    refine List.nodup_cons.mpr ⟨fun hid => ?_, ih⟩
    obtain ⟨more, hlt, hmore⟩ := hrest.exists_of_mem hid
    have heq := hmore.unique (.through hfind hnull hrest)
    rw [List.cons.inj heq |>.2] at hlt
    omega

/-- The value is found if none of the ids has been seen and they are not too many. -/
theorem run_follow {seen : List ObjectId} {left : Nat} (h : Passes find ids stored value)
    (hseen : ∀ id ∈ ids, id ∉ seen) (hleft : ids.length ≤ left) :
    (follow seen left stored).run find = .ok (.found value) := by
  induction h generalizing seen left with
  | direct hdirect =>
    rw [follow_of_direct hdirect]
    rfl
  | @through first ids stored value hfind hnull hrest ih =>
    have hnodup := (Passes.through hfind hnull hrest).nodup
    cases left with
    | zero => simp at hleft
    | succ left =>
      rw [run_follow_reference (hseen first List.mem_cons_self) hfind hnull]
      refine ih (fun id hid hmem => ?_) (by simpa using hleft)
      rcases List.mem_cons.mp hmem with rfl | hmem
      · exact (List.nodup_cons.mp hnodup).1 hid
      · exact hseen id (List.mem_cons_of_mem first hid) hmem

theorem run_target (h : Passes find ids stored value) (hhops : ids.length ≤ maxHops) :
    (target stored).run find = .ok (.found value) :=
  h.run_follow (fun _ _ => List.not_mem_nil) hhops

theorem run_valueIfAny (h : Passes find ids stored value) (hhops : ids.length ≤ maxHops)
    (hnull : value ≠ .null) (site : Site) (required : Bool) :
    (valueIfAny site required stored).run find = .ok (some value) := by
  rw [valueIfAny, run_bind_of_run (h.run_target hhops)]
  cases value with
  | null => exact absurd rfl hnull
  | _ => rfl

end Passes

/-- What following finds is found by passing no more references than were left. -/
theorem passes_of_run_follow {seen : List ObjectId} {left : Nat}
    (h : (follow seen left stored).run find = .ok (.found value)) :
    ∃ ids, ids.length ≤ left ∧ Passes find ids stored value := by
  induction left generalizing seen stored with
  | zero =>
    cases stored with
    | reference id => cases h
    | _ => cases h; exact ⟨[], Nat.le_refl 0, .direct rfl⟩
  | succ left ih =>
    cases stored with
    | reference id =>
      by_cases hseen : id ∈ seen
      · simp only [follow, run, if_pos hseen] at h
        cases h
      · cases hfind : find id with
        | none =>
          simp only [follow, run, if_neg hseen, hfind] at h
          cases h
        | some next =>
          by_cases hnull : next = .null
          · simp only [follow, run, if_neg hseen, hfind, hnull] at h
            cases h
          · rw [run_follow_reference hseen hfind hnull] at h
            obtain ⟨ids, hle, hpasses⟩ := ih h
            exact ⟨id :: ids, by simpa using hle, .through hfind hnull hpasses⟩
    | _ => cases h; exact ⟨[], Nat.zero_le _, .direct rfl⟩

theorem run_follow_of_stands (h : Stands find stored value) (seen : List ObjectId) (left : Nat) :
    (follow seen left stored).run find = .ok (.found value) ∨
      ∃ id hops, (follow seen left stored).run find = .ok (.endless id hops) := by
  induction h generalizing seen left with
  | direct hdirect =>
    rw [follow_of_direct hdirect]
    exact .inl rfl
  | @through id stored value hfind hnull _ ih =>
    cases left with
    | zero => exact .inr ⟨id, _, rfl⟩
    | succ left =>
      by_cases hseen : id ∈ seen
      · refine .inr ⟨id, seen.length, ?_⟩
        simp only [follow, run, if_pos hseen]
      · rw [run_follow_reference hseen hfind hnull]
        exact ih (id :: seen) left

/-- What following finds is what the stored value stands for. -/
theorem stands_of_run_follow {seen : List ObjectId} {left : Nat}
    (h : (follow seen left stored).run find = .ok (.found value)) : Stands find stored value := by
  obtain ⟨ids, -, hpasses⟩ := passes_of_run_follow h
  exact hpasses.stands

theorem stands_of_run_valueOf {site : Site} (h : (valueOf site stored).run find = .ok value) :
    Stands find stored value := by
  obtain ⟨target, htarget, h⟩ := exists_of_run_bind h
  cases target with
  | found _ => cases h; exact stands_of_run_follow htarget
  | dangling _ => cases h
  | endless _ _ => cases h

/-- A value that is not absent is what following has found. -/
theorem found_of_run_valueIfAny {site : Site} {required : Bool}
    (h : (valueIfAny site required stored).run find = .ok (some value)) :
    (target stored).run find = .ok (.found value) ∧ value ≠ .null := by
  obtain ⟨target, htarget, h⟩ := exists_of_run_bind h
  cases target with
  | found found =>
    cases found with
    | null => cases h
    | _ => cases h; exact ⟨htarget, by simp⟩
  | dangling _ => cases required <;> cases h
  | endless _ _ => cases h

theorem stands_of_run_valueIfAny {site : Site} {required : Bool}
    (h : (valueIfAny site required stored).run find = .ok (some value)) :
    Stands find stored value ∧ value ≠ .null := by
  obtain ⟨hfound, hnull⟩ := found_of_run_valueIfAny h
  exact ⟨stands_of_run_follow hfound, hnull⟩

theorem passes_of_run_valueIfAny {site : Site} {required : Bool}
    (h : (valueIfAny site required stored).run find = .ok (some value)) :
    ∃ ids, ids.length ≤ maxHops ∧ Passes find ids stored value :=
  passes_of_run_follow (found_of_run_valueIfAny h).1

/-- Of what is required only a null given as it is counts as absent. -/
theorem eq_null_of_run_valueIfAny {site : Site}
    (h : (valueIfAny site true stored).run find = .ok none) : stored = .null := by
  obtain ⟨target, htarget, h⟩ := exists_of_run_bind h
  cases target with
  | found found =>
    cases found with
    | null => exact (stands_of_run_follow htarget).eq_null
    | _ => cases h
  | dangling _ => cases h
  | endless _ _ => cases h

theorem valueOf_of_run (hstands : Stands find stored value) {site : Site} {found : Object}
    (h : (valueOf site stored).run find = .ok found) : found = value :=
  hstands.unique (stands_of_run_valueOf h)

theorem valueIfAny_of_run (hstands : Stands find stored value) (hnull : value ≠ .null) {site : Site}
    {required : Bool} {value? : Option Object}
    (h : (valueIfAny site required stored).run find = .ok value?) : value? = some value := by
  obtain ⟨target, htarget, h⟩ := exists_of_run_bind h
  rcases run_follow_of_stands hstands [] maxHops with hfound | ⟨id, hops, hendless⟩
  · cases hfound.symm.trans htarget
    cases value with
    | null => exact absurd rfl hnull
    | _ => cases h; rfl
  · cases hendless.symm.trans htarget
    cases h

/-- Two ways of going on from a stored value need be compared for the value it stands for only. -/
theorem Inquiry.Covers.of_stands {α β : Type} {R : α → β → Prop} {f : Target → Inquiry α}
    {g : Target → Inquiry β} (h : Stands find stored value)
    (hendless : ∀ id hops, ∃ fault, (f (.endless id hops)).run find = .error fault)
    (hfound : Covers find R (f (.found value)) (g (.found value))) :
    Covers find R (target stored >>= f) (target stored >>= g) := by
  refine (Covers.refl (target stored)).bind ?_
  rintro found _ hrun rfl
  rcases run_follow_of_stands h [] maxHops with hvalue | ⟨id, hops, hvalue⟩
  · cases hrun.symm.trans hvalue
    exact hfound
  · cases hrun.symm.trans hvalue
    obtain ⟨fault, hfault⟩ := hendless id hops
    exact .of_error hfault _

theorem valueIfAny_covers_valueOf (h : Stands find stored value) (hnull : value ≠ .null)
    (a b : Site) (required : Bool) :
    Covers find (fun found? found => found? = some value ∧ found = value)
      (valueIfAny a required stored) (valueOf b stored) := by
  refine .of_stands h (fun id hops => ⟨_, rfl⟩) ?_
  cases value with
  | null => exact absurd rfl hnull
  | _ =>
    rintro found? ⟨⟩
    exact ⟨_, ⟨rfl, rfl⟩, rfl, List.Sublist.refl _⟩

theorem valueIfAny_covers (h : Stands find stored value) (hnull : value ≠ .null) (a b : Site)
    (required required' : Bool) :
    Covers find (fun found? found?' => found? = some value ∧ found?' = some value)
      (valueIfAny a required stored) (valueIfAny b required' stored) := by
  refine .of_stands h (fun id hops => ⟨_, rfl⟩) ?_
  cases value with
  | null => exact absurd rfl hnull
  | _ =>
    rintro found? ⟨⟩
    exact ⟨_, ⟨rfl, rfl⟩, rfl, List.Sublist.refl _⟩

end PdfConformance

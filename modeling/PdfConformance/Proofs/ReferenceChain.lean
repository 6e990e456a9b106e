import Mathlib.Data.ENat.Lattice
import Mathlib.Data.Set.Card
import PdfConformance.Proofs.Absence

/-! # Chains of references

What is met by looking up one reference after the other, with no regard to how many there are and
which have been passed: `met` is the value that so many look-ups lead to, `metId?` the id to be
looked up next. `run_valueOf_chain` tells from this chain what following comes to. It finds the
value at the end, or the id under which there is nothing, if that is soon enough. Else it has gone
on, each id being new, until it came back to one of them or had passed as many as it may: by then it
has passed all ids that there are on the chain, or that many. -/

namespace PdfConformance

open Inquiry

variable {find : ObjectId → Option Object} {stored value : Object} {ids : List ObjectId}
  {id : ObjectId} {hops : Nat}

/-- What so many look-ups lead to, if they lead anywhere. -/
def met (find : ObjectId → Option Object) (stored : Object) : Nat → Option Object
  | 0 => some stored
  | hops + 1 => (met find stored hops).bind fun value => value.reference?.bind find

/-- The id to be looked up after so many others. -/
def metId? (find : ObjectId → Option Object) (stored : Object) (hops : Nat) : Option ObjectId :=
  (met find stored hops).bind Object.reference?

/-- The ids that are ever to be looked up. -/
def metIds (find : ObjectId → Option Object) (stored : Object) : Set ObjectId :=
  {id | ∃ hops, metId? find stored hops = some id}

/-! ## The chain -/

/-- The first look-up taken apart from the others. -/
theorem met_succ (find : ObjectId → Option Object) (stored : Object) (hops : Nat) :
    met find stored (hops + 1) =
      stored.reference?.bind fun id => (find id).bind fun next => met find next hops := by
  induction hops with
  | zero => simp [met]
  | succ hops ih =>
    rw [met, ih]
    simp only [Option.bind_assoc, met]

theorem met_reference {next : Object} (hfind : find id = some next) (hops : Nat) :
    met find (.reference id) (hops + 1) = met find next hops := by
  rw [met_succ]
  simp [Object.reference?, hfind]

theorem metId?_reference {next : Object} (hfind : find id = some next) (hops : Nat) :
    metId? find (.reference id) (hops + 1) = metId? find next hops := by
  rw [metId?, met_reference hfind, metId?]

/-- The next id depends on the last one only. -/
theorem metId?_succ (find : ObjectId → Option Object) (stored : Object) (hops : Nat) :
    metId? find stored (hops + 1) =
      (metId? find stored hops).bind fun id => (find id).bind Object.reference? := by
  simp only [metId?, met, Option.bind_assoc]

theorem isSome_metId?_of_le {fewer : Nat} (h : (metId? find stored hops).isSome)
    (hle : fewer ≤ hops) : (metId? find stored fewer).isSome := by
  induction hle with
  | refl => exact h
  | @step hops _ ih =>
    refine ih ?_
    rw [metId?_succ] at h
    cases hid : metId? find stored hops with
    | none => simp [hid] at h
    | some id => rfl

/-- Behind a value that is no reference no id is met. -/
theorem metId?_eq_none_of_met (hmet : met find stored hops = some value)
    (hdirect : value.reference? = none) : metId? find stored hops = none := by
  rw [metId?, hmet]
  exact hdirect

theorem metId?_succ_eq_none (hid : metId? find stored hops = some id)
    (hnothing : find id = none ∨ find id = some .null) : metId? find stored (hops + 1) = none := by
  rw [metId?_succ, hid]
  rcases hnothing with hnone | hnone <;> simp [hnone, Object.reference?]

theorem exists_passes_iff : (∃ ids, ids.length = hops ∧ Passes find ids stored value) ↔
    met find stored hops = some value ∧ value.reference? = none ∧
      (hops = 0 ∨ value ≠ .null) := by
  induction hops generalizing stored with
  | zero =>
    constructor
    · intro ⟨ids, hlength, hpasses⟩
      cases hpasses with
      | direct hdirect => exact ⟨rfl, hdirect, .inl rfl⟩
      | through _ _ _ => cases hlength
    · intro ⟨hmet, hdirect, _⟩
      cases hmet
      exact ⟨[], rfl, .direct hdirect⟩
  | succ hops ih =>
    constructor
    · intro ⟨ids, hlength, hpasses⟩
      cases hpasses with
      | direct _ => cases hlength
      | @through id ids next _ hfind hnull hrest =>
        obtain ⟨hmet, hdirect, hlast⟩ := ih.mp ⟨ids, Nat.succ.inj hlength, hrest⟩
        refine ⟨(met_reference hfind hops).trans hmet, hdirect, .inr ?_⟩
        rcases hlast with rfl | hlast
        · cases hmet
          exact hnull
        · exact hlast
    · intro ⟨hmet, hdirect, hlast⟩
      have hvalue : value ≠ .null := hlast.resolve_left (Nat.succ_ne_zero hops)
      rw [met_succ] at hmet
      obtain ⟨id, hid, hmet⟩ := Option.bind_eq_some_iff.mp hmet
      obtain ⟨next, hfind, hmet⟩ := Option.bind_eq_some_iff.mp hmet
      obtain ⟨ids, hlength, hpasses⟩ := ih.mpr ⟨hmet, hdirect, .inr hvalue⟩
      obtain rfl := Object.eq_reference_of_reference? hid
      refine ⟨id :: ids, congrArg (· + 1) hlength, .through hfind ?_ hpasses⟩
      intro hnull
      subst hnull
      exact hvalue (hpasses.stands.eq_of_direct rfl)

theorem exists_strays_iff : (∃ ids, ids.length = hops + 1 ∧ Strays find ids stored id) ↔
    metId? find stored hops = some id ∧ (find id = none ∨ find id = some .null) := by
  induction hops generalizing stored with
  | zero =>
    constructor
    · intro ⟨ids, hlength, hstrays⟩
      cases hstrays with
      | here hnothing => exact ⟨rfl, hnothing⟩
      | through _ hrest => cases hrest <;> cases hlength
    · intro ⟨hid, hnothing⟩
      obtain rfl := Object.eq_reference_of_reference? hid
      exact ⟨[id], rfl, .here hnothing⟩
  | succ hops ih =>
    constructor
    · intro ⟨ids, hlength, hstrays⟩
      cases hstrays with
      | here _ => cases hlength
      | @through first _ ids next hfind hrest =>
        obtain ⟨hid, hnothing⟩ := ih.mp ⟨ids, Nat.succ.inj hlength, hrest⟩
        exact ⟨(metId?_reference hfind hops).trans hid, hnothing⟩
    · intro ⟨hid, hnothing⟩
      rw [metId?, met_succ, Option.bind_assoc] at hid
      obtain ⟨first, hfirst, hid⟩ := Option.bind_eq_some_iff.mp hid
      rw [Option.bind_assoc] at hid
      obtain ⟨next, hfind, hid⟩ := Option.bind_eq_some_iff.mp hid
      obtain ⟨ids, hlength, hstrays⟩ := ih.mpr ⟨hid, hnothing⟩
      obtain rfl := Object.eq_reference_of_reference? hfirst
      exact ⟨first :: ids, congrArg (· + 1) hlength, .through hfind hstrays⟩

/-! ## Where following gives up -/

/-- These references, one after the other, lead from the stored value to a reference. -/
inductive Leads (find : ObjectId → Option Object) : List ObjectId → Object → ObjectId → Prop
  | here {id : ObjectId} : Leads find [] (.reference id) id
  | through {id last : ObjectId} {ids : List ObjectId} {stored : Object} : find id = some stored →
      Leads find ids stored last → Leads find (id :: ids) (.reference id) last

/-- Following passes these ids, none of them twice, and stops before it looks up the id, since it
has passed that too or may go no further. -/
structure GivesUp (find : ObjectId → Option Object) (seen : List ObjectId) (left : Nat)
    (stored : Object) (ids : List ObjectId) (id : ObjectId) : Prop where
  leads : Leads find ids stored id
  nodup : ids.Nodup
  unseen : ∀ passed ∈ ids, passed ∉ seen
  length_le : ids.length ≤ left
  stops : ids.length = left ∨ id ∈ ids ∨ id ∈ seen

theorem Leads.metId?_eq (h : Leads find ids stored id) {place : Nat} (hplace : place ≤ ids.length) :
    metId? find stored place = (ids ++ [id])[place]? := by
  induction h generalizing place with
  | here =>
    obtain rfl := Nat.le_zero.mp hplace
    rfl
  | through hfind _ ih =>
    cases place with
    | zero => rfl
    | succ place => exact (metId?_reference hfind place).trans (ih (Nat.le_of_succ_le_succ hplace))

theorem Leads.exists_place (h : Leads find ids stored id) {passed : ObjectId}
    (hpassed : passed ∈ ids) : ∃ place < ids.length, metId? find stored place = some passed := by
  obtain ⟨place, hlt, heq⟩ := List.mem_iff_getElem.mp hpassed
  refine ⟨place, hlt, ?_⟩
  rw [h.metId?_eq hlt.le, List.getElem?_append_left hlt, List.getElem?_eq_getElem hlt, heq]

/-- Where an id comes again, no other ids are met than before. -/
theorem Leads.exists_mem_of_circle (h : Leads find ids stored id) (hcircle : id ∈ ids)
    (hops : Nat) : ∃ passed ∈ ids, metId? find stored hops = some passed := by
  have hmem {place : Nat} (hplace : place ≤ ids.length) :
      ∃ passed ∈ ids, metId? find stored place = some passed := by
    have hlt : place < (ids ++ [id]).length := by simpa using Nat.lt_succ_of_le hplace
    refine ⟨(ids ++ [id])[place], ?_, ?_⟩
    · rcases List.mem_append.mp (List.getElem_mem hlt) with hpassed | hlast
      · exact hpassed
      · rwa [List.mem_singleton.mp hlast]
    · rw [h.metId?_eq hplace, List.getElem?_eq_getElem hlt]
  induction hops with
  | zero => exact hmem (Nat.zero_le _)
  | succ hops ih =>
    -- the id met here was met at one of the first places, and the chain goes on as it did there
    obtain ⟨passed, hpassed, hid⟩ := ih
    obtain ⟨place, hlt, hearlier⟩ := h.exists_place hpassed
    obtain ⟨next, hnext, hmet⟩ := hmem (Nat.succ_le_of_lt hlt)
    refine ⟨next, hnext, ?_⟩
    rw [metId?_succ, hid, ← hearlier, ← metId?_succ, hmet]

namespace GivesUp

variable {seen : List ObjectId} {left : Nat}

theorem through {first : ObjectId} {next : Object} (hseen : first ∉ seen)
    (hfind : find first = some next) (h : GivesUp find (first :: seen) left next ids id) :
    GivesUp find seen (left + 1) (.reference first) (first :: ids) id where
  leads := .through hfind h.leads
  nodup := List.nodup_cons.mpr ⟨fun hmem => h.unseen first hmem List.mem_cons_self, h.nodup⟩
  unseen := List.forall_mem_cons.mpr
    ⟨hseen, fun passed hmem hold => h.unseen passed hmem (List.mem_cons_of_mem first hold)⟩
  length_le := Nat.succ_le_succ h.length_le
  stops := by
    rcases h.stops with hlength | hmem | hmem
    · exact .inl (congrArg (· + 1) hlength)
    · exact .inr (.inl (List.mem_cons_of_mem first hmem))
    · rcases List.mem_cons.mp hmem with rfl | hmem
      · exact .inr (.inl List.mem_cons_self)
      · exact .inr (.inr hmem)

theorem metId?_length (h : GivesUp find seen left stored ids id) :
    metId? find stored ids.length = some id := by
  rw [h.leads.metId?_eq (Nat.le_refl _)]
  simp

/-- If all there is left to pass has not been passed, the chain goes in a circle. -/
theorem isSome_metId? (h : GivesUp find [] left stored ids id) :
    (metId? find stored left).isSome := by
  rcases h.stops with hlength | hcircle | hseen
  · rw [← hlength, h.metId?_length]
    rfl
  · obtain ⟨passed, -, hid⟩ := h.leads.exists_mem_of_circle hcircle left
    rw [hid]
    rfl
  · cases hseen

/-- All ids of the chain have been passed, or as many as may be. -/
theorem length_eq (h : GivesUp find [] left stored ids id) :
    (ids.length : ℕ∞) = min (left : ℕ∞) (metIds find stored).encard := by
  have hcard : (ids.length : ℕ∞) = {passed | passed ∈ ids}.encard := by
    rw [← List.coe_toFinset, Set.encard_coe_eq_coe_finsetCard,
      List.toFinset_card_of_nodup h.nodup]
  have hsubset : {passed | passed ∈ ids} ⊆ metIds find stored := by
    intro passed hpassed
    obtain ⟨place, -, hid⟩ := h.leads.exists_place hpassed
    exact ⟨place, hid⟩
  have hle : (ids.length : ℕ∞) ≤ left := by exact_mod_cast h.length_le
  refine le_antisymm (le_min hle (hcard ▸ Set.encard_le_encard hsubset)) ?_
  -- what has been passed is all there may be, or all there is
  rcases h.stops with hlength | hcircle | hseen
  · rw [hlength]
    exact min_le_left _ _
  · refine (min_le_right _ _).trans (hcard ▸ Set.encard_le_encard ?_)
    intro other ⟨hops, hother⟩
    obtain ⟨passed, hpassed, hid⟩ := h.leads.exists_mem_of_circle hcircle hops
    rw [hid] at hother
    cases hother
    exact hpassed
  · cases hseen

end GivesUp

theorem exists_givesUp_of_run_follow {seen : List ObjectId} {left : Nat}
    (h : (follow seen left stored).run find = .ok (.endless id hops)) :
    ∃ ids, hops = seen.length + ids.length ∧ GivesUp find seen left stored ids id := by
  induction left generalizing seen stored with
  | zero =>
    cases stored with
    | reference first =>
      cases h
      exact ⟨[], rfl, .here, List.nodup_nil, nofun, Nat.le_refl 0, .inl rfl⟩
    | _ => cases h
  | succ left ih =>
    cases stored with
    | reference first =>
      by_cases hseen : first ∈ seen
      · simp only [follow, run, if_pos hseen] at h
        cases h
        exact ⟨[], rfl, .here, List.nodup_nil, nofun, Nat.zero_le _, .inr (.inr hseen)⟩
      · cases hfind : find first with
        | none =>
          simp only [follow, run, if_neg hseen, hfind] at h
          cases h
        | some next =>
          by_cases hnull : next = .null
          · simp only [follow, run, if_neg hseen, hfind, hnull] at h
            cases h
          · rw [run_follow_reference hseen hfind hnull] at h
            obtain ⟨ids, hhops, hgives⟩ := ih h
            refine ⟨first :: ids, ?_, hgives.through hseen hfind⟩
            simp only [List.length_cons] at hhops ⊢
            omega
    | _ => cases h

/-- Following always comes to something, and looks up no more references than were left. -/
theorem exists_run_follow (find : ObjectId → Option Object) (seen : List ObjectId) (left : Nat)
    (stored : Object) : ∃ found, (follow seen left stored).run find = .ok found ∧
      ((follow seen left stored).asked find).length ≤ left := by
  induction left generalizing seen stored with
  | zero => cases stored <;> exact ⟨_, rfl, Nat.le_refl 0⟩
  | succ left ih =>
    cases stored with
    | reference id =>
      by_cases hseen : id ∈ seen
      · simp [follow, run, asked, hseen]
      · cases hfind : find id with
        | none => simp [follow, run, asked, hseen, hfind]
        | some next =>
          by_cases hnull : next = .null
          · simp [follow, run, asked, hseen, hfind, hnull]
          · rw [run_follow_reference hseen hfind hnull, asked_follow_reference hseen hfind hnull]
            obtain ⟨found, hfound, hasked⟩ := ih (id :: seen) next
            exact ⟨found, hfound, Nat.succ_le_succ hasked⟩
    | _ => exact ⟨_, rfl, Nat.zero_le _⟩

theorem exists_run_target (find : ObjectId → Option Object) (stored : Object) :
    ∃ found, (target stored).run find = .ok found ∧
      ((target stored).asked find).length ≤ maxHops :=
  exists_run_follow find [] maxHops stored

/-! ## What following comes to -/

/-- Where following gives up is told of the value. -/
theorem run_valueOf_eq_error {site : Site} {fault : Fault} :
    (valueOf site stored).run find = .error fault ↔
      (∃ id, (target stored).run find = .ok (.dangling id) ∧ fault = .dangling site id) ∨
      ∃ id hops, (target stored).run find = .ok (.endless id hops) ∧
        fault = .endless site (some id) hops .hops := by
  obtain ⟨found, hfound, -⟩ := exists_run_target find stored
  rw [valueOf, run_bind_of_run hfound, hfound]
  cases found <;> simp [run, eq_comm]

theorem length_asked_valueOf (site : Site) :
    ((valueOf site stored).asked find).length ≤ maxHops := by
  obtain ⟨found, hfound, hasked⟩ := exists_run_target find stored
  rw [valueOf, asked_bind_of_run hfound]
  cases found <;> simpa [asked] using hasked

theorem resolves_iff_met : Resolves find stored value ↔ ∃ hops ≤ maxHops,
    met find stored hops = some value ∧ value.reference? = none ∧ (hops = 0 ∨ value ≠ .null) := by
  constructor
  · intro ⟨ids, hle, hpasses⟩
    exact ⟨ids.length, hle, exists_passes_iff.mp ⟨ids, rfl, hpasses⟩⟩
  · intro ⟨hops, hle, hmet⟩
    obtain ⟨ids, rfl, hpasses⟩ := exists_passes_iff.mpr hmet
    exact ⟨ids, hle, hpasses⟩

theorem run_target_eq_dangling_iff_met : (target stored).run find = .ok (.dangling id) ↔
    ∃ hops < maxHops, metId? find stored hops = some id ∧
      (find id = none ∨ find id = some .null) := by
  rw [run_target_eq_dangling]
  constructor
  · intro ⟨ids, hle, hstrays⟩
    cases ids with
    | nil => cases hstrays
    | cons first ids => exact ⟨ids.length, hle, exists_strays_iff.mp ⟨first :: ids, rfl, hstrays⟩⟩
  · intro ⟨hops, hlt, hmet⟩
    obtain ⟨ids, hlength, hstrays⟩ := exists_strays_iff.mpr hmet
    exact ⟨ids, hlength.trans_le hlt, hstrays⟩

theorem givesUp_of_run_target (h : (target stored).run find = .ok (.endless id hops)) :
    ∃ ids, hops = ids.length ∧ GivesUp find [] maxHops stored ids id := by
  obtain ⟨ids, hhops, hgives⟩ := exists_givesUp_of_run_follow h
  exact ⟨ids, hhops.trans (Nat.zero_add _), hgives⟩

/-- A chain that ends soon enough has no more ids than may be passed. -/
theorem exists_run_target_eq_endless_iff :
    (∃ id hops, (target stored).run find = .ok (.endless id hops)) ↔
      (metId? find stored maxHops).isSome := by
  constructor
  · intro ⟨id, hops, hendless⟩
    obtain ⟨ids, -, hgives⟩ := givesUp_of_run_target hendless
    exact hgives.isSome_metId?
  · intro hlong
    obtain ⟨found, hfound, -⟩ := exists_run_target find stored
    -- a chain that goes on has ended neither in a value nor in nothing
    have hnot {hops : Nat} (hle : hops ≤ maxHops) (hnone : metId? find stored hops = none) :
        False := by
      have hsome := isSome_metId?_of_le hlong hle
      rw [hnone] at hsome
      cases hsome
    cases found with
    | found value =>
      obtain ⟨hops, hle, hmet, hdirect, -⟩ := resolves_iff_met.mp (run_target_eq_found.mp hfound)
      exact (hnot hle (metId?_eq_none_of_met hmet hdirect)).elim
    | dangling id =>
      obtain ⟨hops, hlt, hid, hnothing⟩ := run_target_eq_dangling_iff_met.mp hfound
      exact (hnot hlt (metId?_succ_eq_none hid hnothing)).elim
    | endless id hops => exact ⟨id, hops, hfound⟩

/-- Following a value comes to the end of its chain or gives up, as the chain says: the chain may
end in a value or in nothing, or have more references than are followed, as it has if it never
ends. -/
theorem run_valueOf_chain (find : ObjectId → Option Object) (site : Site) (stored : Object) :
    let verdict := (valueOf site stored).run find
    (∀ value, verdict = .ok value ↔ ∃ hops ≤ 32, met find stored hops = some value ∧
      value.reference? = none ∧ (hops = 0 ∨ value ≠ .null)) ∧
    (∀ id, verdict = .error (.dangling site id) ↔ ∃ hops < 32, metId? find stored hops = some id ∧
      (find id = none ∨ find id = some .null)) ∧
    ((∃ id depth, verdict = .error (.endless site (some id) depth .hops)) ↔
      (∀ hops, (metId? find stored hops).isSome) ∨ (metId? find stored 32).isSome) ∧
    (∀ id depth, verdict = .error (.endless site (some id) depth .hops) →
      (depth : ℕ∞) = min 32 (metIds find stored).encard ∧ metId? find stored depth = some id) ∧
    (∀ fault, verdict = .error fault → (∃ id, fault = .dangling site id) ∨
      ∃ id depth, fault = .endless site (some id) depth .hops) ∧
    ((valueOf site stored).asked find).length ≤ 32 := by
  intro verdict
  have hendless (id : ObjectId) (depth : Nat) :
      verdict = .error (.endless site (some id) depth .hops) ↔
        (target stored).run find = .ok (.endless id depth) := by
    refine run_valueOf_eq_error.trans ?_
    simp only [Fault.endless.injEq, Option.some.injEq]
    grind
  refine ⟨fun value => run_valueOf_eq_ok.trans resolves_iff_met, fun id => ?_, ?_, ?_, ?_,
    length_asked_valueOf site⟩
  · refine run_valueOf_eq_error.trans ?_
    rw [← maxHops, ← run_target_eq_dangling_iff_met]
    grind
  · simp only [hendless, exists_run_target_eq_endless_iff]
    exact ⟨.inr, fun h => h.elim (fun hall => hall maxHops) id⟩
  · intro id depth h
    obtain ⟨ids, rfl, hgives⟩ := givesUp_of_run_target ((hendless id depth).mp h)
    exact ⟨hgives.length_eq, hgives.metId?_length⟩
  · intro fault h
    rcases run_valueOf_eq_error.mp h with ⟨id, -, rfl⟩ | ⟨id, hops, -, rfl⟩
    · exact .inl ⟨id, rfl⟩
    · exact .inr ⟨id, hops, rfl⟩

-- a chain of three ids that comes back to the second of them
example : (valueOf ⟨"form", "Group"⟩ (.reference ⟨1, 0⟩)).run
    (fun id => some (.reference ⟨if id.number = 2 then 3 else 2, 0⟩)) =
      .error (.endless ⟨"form", "Group"⟩ (some ⟨2, 0⟩) 3 .hops) := rfl

end PdfConformance

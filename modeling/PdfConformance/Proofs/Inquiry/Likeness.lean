import Mathlib.Data.List.Forall2
import PdfConformance.Proofs.Reference

/-! # Inquiries into two documents

Two documents are alike if what is stored in the one corresponds to what is stored in the other. An
inquiry into the second mirrors one into the first if their verdicts correspond, and their look-ups
by number where they are made in step; what corresponds is for a `Likeness` to say. -/

namespace PdfConformance

/-- The id of the object a fault is put to, besides its place. -/
def Fault.id? : Fault → Option ObjectId
  | dangling _ id => some id
  | endless _ id? _ _ => id?
  | _ => none

/-- Two documents, which stored values, which entries of containers and which faults correspond, and
the faults with which an inquiry into the second may end whatever the first finds. -/
structure Likeness where
  find : ObjectId → Option Object
  find' : ObjectId → Option Object
  alike : Object → Object → Prop
  arranged : Dict → Dict → Prop
  fault : Fault → Fault → Prop
  excused : Fault → Prop
  /-- The inquiries make their look-ups in step. Then no fault is excused. -/
  paced : Prop
  unexcused : paced → ∀ fault, ¬ excused fault

namespace Likeness

variable {l : Likeness}

/-- The headers declare the same filters. -/
def SameFilters (header header' : Dict) : Prop :=
  ∀ filter, Dict.filteredOnlyBy header' filter = Dict.filteredOnlyBy header filter

/-- Values that are no references and have parts that are alike. -/
inductive Values (l : Likeness) : Object → Object → Prop
  | null : Values l .null .null
  | boolean {value : Bool} : Values l (.boolean value) (.boolean value)
  | integer {value : Int} : Values l (.integer value) (.integer value)
  | real {value : Real32} : Values l (.real value) (.real value)
  | name {spelling : Bytes} : Values l (.name spelling) (.name spelling)
  | string {form : StringForm} {content : Bytes} :
      Values l (.string form content) (.string form content)
  | array {items items' : List Object} : List.Forall₂ l.alike items items' →
      Values l (.array items) (.array items')
  | dictionary {d d' : Dict} : l.arranged d d' → Values l (.dictionary d) (.dictionary d')
  | stream {header header' : Dict} : l.arranged header header' → SameFilters header header' →
      Values l (.stream header) (.stream header')

theorem Values.kind_eq {value value' : Object} (h : l.Values value value') :
    value'.kind = value.kind := by
  cases h <;> rfl

theorem Values.nameText?_eq {value value' : Object} (h : l.Values value value') :
    value'.nameText? = value.nameText? := by
  cases h <;> rfl

/-- Chains of references that end alike: what leads nowhere is as good a fault for the one as for
the other. -/
inductive Targets (l : Likeness) : Target → Target → Prop
  | found {value value' : Object} : l.Values value value' →
      Targets l (.found value) (.found value')
  | dangling {id id' : ObjectId} :
      (∀ site, l.fault (.dangling site id) (.dangling site id')) →
      Targets l (.dangling id) (.dangling id')
  | endless {id id' : ObjectId} {hops : Nat} :
      (∀ site, l.fault (.endless site (some id) hops .hops)
        (.endless site (some id') hops .hops)) →
      Targets l (.endless id hops) (.endless id' hops)

/-- Verdicts that correspond, by their results or by their faults. -/
inductive Verdicts (l : Likeness) {α β : Type} (R : α → β → Prop) :
    Except Fault α → Except Fault β → Prop
  | ok {a : α} {b : β} : R a b → Verdicts l R (.ok a) (.ok b)
  | error {fault fault' : Fault} : l.fault fault fault' →
      Verdicts l R (.error fault) (.error fault')
  | excused {verdict : Except Fault α} {fault' : Fault} : l.excused fault' →
      Verdicts l R verdict (.error fault')

/-- If faults correspond by what they are turned into, and none is excused, so do verdicts. -/
theorem Verdicts.eq_mapError {α : Type} {turn : Fault → Fault} {verdict verdict' : Except Fault α}
    (h : l.Verdicts Eq verdict verdict') (hpaced : l.paced)
    (hturn : ∀ fault fault', l.fault fault fault' → fault' = turn fault) :
    verdict' = verdict.mapError turn := by
  cases h with
  | ok hresult =>
    rw [hresult]
    rfl
  | error hfault =>
    rw [hturn _ _ hfault]
    rfl
  | excused hexcused => exact absurd hexcused (l.unexcused hpaced _)

/-- What `y` finds in the second document corresponds to what `x` finds in the first. -/
structure Mirrors (l : Likeness) {α β : Type} (R : α → β → Prop) (x : Inquiry α) (y : Inquiry β) :
    Prop where
  verdicts : l.Verdicts R (x.run l.find) (y.run l.find')
  pace : l.paced → (y.asked l.find').length = (x.asked l.find).length

/-- A fault that names no object corresponds to itself. Containers that correspond have entries that
are alike under the same keys, and values that are alike lead to values with such parts. -/
structure Coherent (l : Likeness) : Prop where
  fault_refl : ∀ fault, fault.id? = none → l.fault fault fault
  get? : ∀ {d d' : Dict}, l.arranged d d' → ∀ key,
    Option.Rel l.alike (Dict.get? d key) (Dict.get? d' key)
  length_eq : ∀ {d d' : Dict}, l.arranged d d' → d'.length = d.length
  target : ∀ {stored stored' : Object}, l.alike stored stored' →
    l.Mirrors l.Targets (target stored) (target stored')

namespace Mirrors

variable {α β γ δ : Type} {R : α → β → Prop} {S : γ → δ → Prop} {x : Inquiry α} {y : Inquiry β}

/-- What comes after may take both results for granted. -/
theorem bind_run {f : α → Inquiry γ} {g : β → Inquiry δ} (h : l.Mirrors R x y)
    (hfg : ∀ a b, x.run l.find = .ok a → y.run l.find' = .ok b → R a b →
      l.Mirrors S (f a) (g b)) : l.Mirrors S (x >>= f) (y >>= g) := by
  obtain ⟨hverdicts, hpace⟩ := h
  generalize hx : x.run l.find = verdict at hverdicts
  generalize hy : y.run l.find' = verdict' at hverdicts
  cases hverdicts with
  | @ok a b hab =>
    obtain ⟨hrest, hrestPace⟩ := hfg a b hx hy hab
    refine ⟨?_, fun hpaced => ?_⟩
    · rw [Inquiry.run_bind_of_run hx, Inquiry.run_bind_of_run hy]
      exact hrest
    · rw [Inquiry.asked_bind_of_run hx, Inquiry.asked_bind_of_run hy, List.length_append,
        List.length_append, hpace hpaced, hrestPace hpaced]
  | error hfault =>
    refine ⟨?_, fun hpaced => ?_⟩
    · rw [Inquiry.run_bind, Inquiry.run_bind, hx, hy]
      exact .error hfault
    · rw [Inquiry.asked_bind_of_error hx, Inquiry.asked_bind_of_error hy, hpace hpaced]
  | excused hexcused =>
    refine ⟨?_, fun hpaced => absurd hexcused (l.unexcused hpaced _)⟩
    rw [Inquiry.run_bind l.find' y, hy]
    exact .excused hexcused

protected theorem bind {f : α → Inquiry γ} {g : β → Inquiry δ} (h : l.Mirrors R x y)
    (hfg : ∀ a b, R a b → l.Mirrors S (f a) (g b)) : l.Mirrors S (x >>= f) (y >>= g) :=
  h.bind_run fun a b _ _ hab => hfg a b hab

theorem bind_eq {f : α → Inquiry γ} {g : α → Inquiry δ} {y : Inquiry α} (h : l.Mirrors Eq x y)
    (hfg : ∀ a, l.Mirrors S (f a) (g a)) : l.Mirrors S (x >>= f) (y >>= g) :=
  h.bind fun a _ hab => hab ▸ hfg a

theorem done {a : α} {b : β} (h : R a b) : l.Mirrors R (.done a) (.done b) :=
  ⟨.ok h, fun _ => rfl⟩

theorem error {fault fault' : Fault} (h : l.fault fault fault') :
    l.Mirrors R (.fail fault) (.fail fault') :=
  ⟨.error h, fun _ => rfl⟩

theorem pause (h : l.Mirrors R x y) : l.Mirrors R (.pause x) (.pause y) := ⟨h.verdicts, h.pace⟩

/-- The ids that are asked for need not be the same. -/
theorem ask {id id' : ObjectId} {next : Option Object → Inquiry α}
    {next' : Option Object → Inquiry β}
    (h : l.Mirrors R (next (l.find id)) (next' (l.find' id'))) :
    l.Mirrors R (.ask id next) (.ask id' next') :=
  ⟨h.verdicts, fun hpaced => congrArg (· + 1) (h.pace hpaced)⟩

theorem excused {fault' : Fault} (h : l.excused fault') (x : Inquiry α) :
    l.Mirrors R x (.fail fault') :=
  ⟨.excused h, fun hpaced => absurd h (l.unexcused hpaced fault')⟩

/-- A loop mirrors another if each of its rounds does. -/
theorem forM {items : List α} {items' : List β} {f : α → Inquiry Unit} {g : β → Inquiry Unit}
    (h : List.Forall₂ (fun item item' => l.Mirrors Eq (f item) (g item')) items items') :
    l.Mirrors Eq (items.forM f) (items'.forM g) := by
  induction h with
  | nil => exact done rfl
  | cons hitem _ ih => exact hitem.bind_eq fun _ => ih

theorem forM_same {items : List α} {f g : α → Inquiry Unit}
    (h : ∀ item ∈ items, l.Mirrors Eq (f item) (g item)) :
    l.Mirrors Eq (items.forM f) (items.forM g) :=
  forM (List.forall₂_same.mpr h)

end Mirrors

namespace Coherent

variable {α β : Type} {R : α → β → Prop}

theorem has_eq (hl : l.Coherent) {d d' : Dict} (h : l.arranged d d') (key : Bytes) :
    Dict.has d' key = Dict.has d key := by
  have hget := hl.get? h key
  unfold Dict.has
  generalize Dict.get? d key = stored? at hget ⊢
  generalize Dict.get? d' key = stored?' at hget ⊢
  cases hget <;> rfl

theorem fail (hl : l.Coherent) (fault : Fault) (h : fault.id? = none) :
    l.Mirrors R (.fail fault : Inquiry α) (.fail fault : Inquiry β) :=
  .error (hl.fault_refl fault h)

theorem require (hl : l.Coherent) {condition condition' : Bool} (h : condition' = condition)
    (fault : Fault) (hfault : fault.id? = none) :
    l.Mirrors Eq (Inquiry.require condition fault) (Inquiry.require condition' fault) := by
  rw [h]
  cases condition with
  | true => exact .done rfl
  | false => exact hl.fail fault hfault

end Coherent

/-! ## Chains of references -/

/-- Stored values that lead on alike: where one is a reference the other is, under another name
maybe, and what is stored there leads on alike; where they are not, they are values that
correspond. -/
structure Chained (l : Likeness) (rename : ObjectId → ObjectId) (kept : Object → Object → Prop) :
    Prop where
  injective : Function.Injective rename
  values : ∀ {stored stored' : Object}, kept stored stored' → stored.reference? = none →
    l.Values stored stored'
  reference : ∀ {via : ObjectId} {stored' : Object}, kept (.reference via) stored' →
    stored' = .reference (rename via) ∧ Option.Rel kept (l.find via) (l.find' (rename via))
  dangling : ∀ site id, l.fault (.dangling site id) (.dangling site (rename id))
  endless : ∀ site id hops, l.fault (.endless site (some id) hops .hops)
    (.endless site (some (rename id)) hops .hops)

namespace Chained

variable {rename : ObjectId → ObjectId} {kept : Object → Object → Prop} {stored stored' : Object}

theorem eq_null_iff (h : l.Chained rename kept) (hkept : kept stored stored') :
    stored' = .null ↔ stored = .null := by
  cases stored with
  | reference via =>
    simp [(h.reference hkept).1]
  | _ =>
    have hvalues := h.values hkept rfl
    cases hvalues
    simp

theorem follow_of_direct (h : l.Chained rename kept) (hkept : kept stored stored')
    (hdirect : stored.reference? = none) (seen seen' : List ObjectId) (left : Nat) :
    l.Mirrors l.Targets (follow seen left stored) (follow seen' left stored') := by
  have hvalues := h.values hkept hdirect
  have hdirect' : stored'.reference? = none := by cases hvalues <;> rfl
  rw [PdfConformance.follow_of_direct hdirect, PdfConformance.follow_of_direct hdirect']
  exact .done (.found hvalues)

/-- Chains of references are followed in step. -/
theorem follow (h : l.Chained rename kept) (hkept : kept stored stored') (seen : List ObjectId)
    (left : Nat) :
    l.Mirrors l.Targets (follow seen left stored) (follow (seen.map rename) left stored') := by
  induction left generalizing seen stored stored' with
  | zero =>
    cases stored with
    | reference via =>
      rw [(h.reference hkept).1, PdfConformance.follow, PdfConformance.follow, List.length_map]
      exact .pause (.done (.endless fun site => h.endless site via _))
    | _ => exact h.follow_of_direct hkept rfl _ _ _
  | succ left ih =>
    cases stored with
    | reference via =>
      obtain ⟨rfl, hstored⟩ := h.reference hkept
      have hmem : rename via ∈ seen.map rename ↔ via ∈ seen := List.mem_map_of_injective h.injective
      by_cases hseen : via ∈ seen
      · simp only [PdfConformance.follow, if_pos hseen, if_pos (hmem.mpr hseen), List.length_map]
        exact .pause (.done (.endless fun site => h.endless site via _))
      · have hseen' := mt hmem.mp hseen
        generalize hfind : l.find via = next? at hstored
        generalize hfind' : l.find' (rename via) = next?' at hstored
        have hdangling : l.Mirrors l.Targets (.done (.dangling via))
            (.done (.dangling (rename via))) := .done (.dangling fun site => h.dangling site via)
        cases hstored with
        | none =>
          simp only [PdfConformance.follow, if_neg hseen, if_neg hseen']
          refine .pause (.ask ?_)
          rw [hfind, hfind']
          exact hdangling
        | @some next next' hnext =>
          by_cases hnull : next = .null
          · have hnull' := (h.eq_null_iff hnext).mpr hnull
            simp only [PdfConformance.follow, if_neg hseen, if_neg hseen']
            refine .pause (.ask ?_)
            rw [hfind, hfind', hnull, hnull']
            exact hdangling
          · have hnull' := mt (h.eq_null_iff hnext).mp hnull
            obtain ⟨hverdicts, hpace⟩ := ih hnext (via :: seen)
            refine ⟨?_, fun hpaced => ?_⟩
            · rw [run_follow_reference hseen hfind hnull, run_follow_reference hseen' hfind' hnull']
              exact hverdicts
            · rw [asked_follow_reference hseen hfind hnull,
                asked_follow_reference hseen' hfind' hnull', List.length_cons, List.length_cons]
              exact congrArg (· + 1) (hpace hpaced)
    | _ => exact h.follow_of_direct hkept rfl _ _ _

end Chained

/-! ## Loops over entries -/

/-- The same keys in the same order, and under each of them values that are alike. -/
def InOrder (alike : Object → Object → Prop) (d d' : Dict) : Prop :=
  List.Forall₂ (fun entry entry' => entry'.1 = entry.1 ∧ alike entry.2 entry'.2) d d'

theorem InOrder.get? {alike : Object → Object → Prop} {d d' : Dict} (h : InOrder alike d d')
    (key : Bytes) : Option.Rel alike (Dict.get? d key) (Dict.get? d' key) := by
  induction h with
  | nil => exact .none
  | @cons entry entry' d d' hentry _ ih =>
    rw [Dict.get?_cons, Dict.get?_cons, hentry.1]
    split
    · exact .some hentry.2
    · exact ih

/-- A loop over the entries of the one is mirrored by the same loop over those of the other, if
rounds with entries that are alike are. -/
def Loops (l : Likeness) (d d' : Dict) : Prop :=
  ∀ judge judge' : Bytes × Object → Inquiry Unit,
    (∀ key stored stored', (key, stored) ∈ d → (key, stored') ∈ d' → l.alike stored stored' →
      l.Mirrors Eq (judge (key, stored)) (judge' (key, stored'))) →
    l.Mirrors Eq (d.forM judge) (d'.forM judge')

theorem InOrder.loops {d d' : Dict} (h : InOrder l.alike d d') : l.Loops d d' := by
  intro judge judge' hround
  apply Mirrors.forM
  rw [InOrder, List.forall₂_iff_zip] at h
  refine List.forall₂_iff_zip.mpr ⟨h.1, ?_⟩
  rintro ⟨key, stored⟩ ⟨key', stored'⟩ hzip
  obtain ⟨hkey, hstored⟩ := h.2 hzip
  obtain ⟨hmem, hmem'⟩ := List.of_mem_zip hzip
  cases hkey
  exact hround key stored stored' hmem hmem' hstored

/-- All collections of entries that correspond are looped over alike. -/
structure Faithful (l : Likeness) : Prop extends Coherent l where
  loops : ∀ {d d' : Dict}, l.arranged d d' → l.Loops d d'

end Likeness

end PdfConformance

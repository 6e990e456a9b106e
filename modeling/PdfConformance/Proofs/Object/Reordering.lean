import Mathlib.Data.List.Forall2
import Mathlib.Data.List.Nodup
import PdfConformance.Proofs.Inquiry.Likeness

/-! # Entries in another order

Objects that differ only in the order of the entries of dictionaries and of the headers of streams,
at any depth. Where the keys are distinct, as they are in what has been built by `Dict.set`, the
order does not matter to what stands under a key. -/

namespace PdfConformance

namespace Dict

variable {d d' : Dict}

/-- Every entry is found under its key. -/
theorem get?_eq_some_iff (hkeys : (d.map Prod.fst).Nodup) {key : Bytes} {value : Object} :
    get? d key = some value ↔ (key, value) ∈ d := by
  induction d with
  | nil => simp
  | cons entry d ih =>
    rw [List.map_cons, List.nodup_cons] at hkeys
    rw [get?_cons, List.mem_cons]
    by_cases heq : key = entry.1
    · subst heq
      have hnot : (entry.1, value) ∉ d := fun h => hkeys.1 (List.mem_map.mpr ⟨_, h, rfl⟩)
      simp [hnot, Prod.ext_iff, eq_comm]
    · have hne : (key, value) ≠ entry := fun h => heq (congrArg Prod.fst h)
      rw [if_neg heq, ih hkeys.2]
      exact ⟨.inr, fun h => h.resolve_left hne⟩

theorem get?_eq_of_perm (hkeys : (d.map Prod.fst).Nodup) (h : d.Perm d') (key : Bytes) :
    get? d key = get? d' key := by
  have hkeys' : (d'.map Prod.fst).Nodup := (h.map Prod.fst).nodup_iff.mp hkeys
  ext value
  rw [get?_eq_some_iff hkeys, get?_eq_some_iff hkeys', h.mem_iff]

/-- Entries that keep the order of their keys keep their order. -/
theorem eq_of_perm (hkeys : (d.map Prod.fst).Nodup) (h : d.Perm d')
    (horder : d'.map Prod.fst = d.map Prod.fst) : d = d' := by
  have hkeys' : (d'.map Prod.fst).Nodup := (h.map Prod.fst).nodup_iff.mp hkeys
  refine List.ext_getElem h.length_eq fun index hlt hlt' => ?_
  refine List.inj_on_of_nodup_map hkeys' (h.mem_iff.mp (List.getElem_mem hlt))
    (List.getElem_mem hlt') ?_
  simpa [hlt, hlt'] using (congrArg (fun keys => keys[index]?) horder).symm

end Dict

/-- The second object is the first, but that entries of dictionaries and of headers of streams may
stand in another order, here and in the parts. Such containers have distinct keys. -/
inductive Object.Reordered : Object → Object → Prop
  | refl (object : Object) : Reordered object object
  | array {items items' : List Object} : List.Forall₂ Reordered items items' →
      Reordered (.array items) (.array items')
  | dictionary {d order d' : Dict} : (d.map Prod.fst).Nodup →
      order.map Prod.fst = d.map Prod.fst →
      List.Forall₂ Reordered (d.map Prod.snd) (order.map Prod.snd) → order.Perm d' →
      Reordered (.dictionary d) (.dictionary d')
  | stream {d order d' : Dict} : (d.map Prod.fst).Nodup →
      order.map Prod.fst = d.map Prod.fst →
      List.Forall₂ Reordered (d.map Prod.snd) (order.map Prod.snd) → order.Perm d' →
      Reordered (.stream d) (.stream d')

/-- The entries of the one are those of the other, reordered within and then in another order. -/
def Dict.Rearranged (d d' : Dict) : Prop :=
  d' = d ∨ (d.map Prod.fst).Nodup ∧
    ∃ order, Likeness.InOrder Object.Reordered d order ∧ order.Perm d'

namespace Likeness.InOrder

variable {alike : Object → Object → Prop} {d d' : Dict}

theorem of_values (hkeys : d'.map Prod.fst = d.map Prod.fst)
    (h : List.Forall₂ alike (d.map Prod.snd) (d'.map Prod.snd)) : InOrder alike d d' := by
  induction d generalizing d' with
  | nil =>
    rw [List.map_eq_nil_iff.mp hkeys]
    exact .nil
  | cons entry d ih =>
    cases d' with
    | nil => cases hkeys
    | cons entry' d' =>
      obtain ⟨hkey, hkeys⟩ := List.cons.inj hkeys
      cases h with
      | cons hvalue hrest => exact .cons ⟨hkey, hvalue⟩ (ih hkeys hrest)

theorem keys_eq (h : InOrder alike d d') : d'.map Prod.fst = d.map Prod.fst := by
  induction h with
  | nil => rfl
  | cons hentry _ ih => rw [List.map_cons, List.map_cons, hentry.1, ih]

theorem refl (h : ∀ value, alike value value) (d : Dict) : InOrder alike d d :=
  List.forall₂_same.mpr fun entry _ => ⟨rfl, h entry.2⟩

end Likeness.InOrder

namespace Dict.Rearranged

variable {d d' : Dict}

theorem get? (h : Rearranged d d') (key : Bytes) :
    Option.Rel Object.Reordered (Dict.get? d key) (Dict.get? d' key) := by
  rcases h with rfl | ⟨hkeys, order, hin, hperm⟩
  · exact (Likeness.InOrder.refl Object.Reordered.refl d').get? key
  · rw [← get?_eq_of_perm (hin.keys_eq ▸ hkeys) hperm]
    exact hin.get? key

theorem length_eq (h : Rearranged d d') : d'.length = d.length := by
  rcases h with rfl | ⟨-, order, hin, hperm⟩
  · rfl
  · rw [← hperm.length_eq]
    exact (List.Forall₂.length_eq hin).symm

/-- Entries that keep the order of their keys have at most been reordered within. -/
theorem inOrder (h : Rearranged d d') (horder : d'.map Prod.fst = d.map Prod.fst) :
    Likeness.InOrder Object.Reordered d d' := by
  rcases h with rfl | ⟨hkeys, order, hin, hperm⟩
  · exact .refl Object.Reordered.refl d'
  · have hsame := hin.keys_eq
    rw [← eq_of_perm (hsame ▸ hkeys) hperm (horder.trans hsame.symm)]
    exact hin

/-- A filter is declared by a name, alone or as the one element of an array. -/
theorem sameFilters (h : Rearranged d d') : Likeness.SameFilters d d' := by
  intro filter
  have hget := h.get? (Text.Utf8.encode "Filter")
  unfold filteredOnlyBy
  generalize Dict.get? d _ = stored? at hget ⊢
  generalize Dict.get? d' _ = stored?' at hget ⊢
  cases hget with
  | none => rfl
  | some hstored =>
    cases hstored with
    | refl object => rfl
    | dictionary _ _ _ _ => rfl
    | stream _ _ _ _ => rfl
    | array hitems =>
      cases hitems with
      | nil => rfl
      | @cons item _ _ _ hitem hrest =>
        cases hrest with
        | nil => cases hitem <;> rfl
        | cons _ _ =>
          cases hitem with
          | refl _ => cases item <;> rfl
          | _ => rfl

end Dict.Rearranged

theorem Object.Reordered.reference?_eq {object object' : Object} (h : Reordered object object') :
    object'.reference? = object.reference? := by
  cases h <;> rfl

end PdfConformance

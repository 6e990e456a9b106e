import Mathlib.Logic.Relation
import PdfConformance.Object.References

/-! # Objects as a graph

Containers have parts, and stored objects refer to one another. `Stands` is where a chain of
references ends well, `Astray` where it ends in nothing. -/

namespace PdfConformance

/-- The elements of an array and the values of entries. -/
def Object.parts : Object → List Object
  | .array items => items
  | .dictionary entries => entries.map Prod.snd
  | .stream header => header.map Prod.snd
  | _ => []

theorem Dict.mem_values_of_get? {entries : Dict} {key : Bytes} {value : Object}
    (h : get? entries key = some value) : value ∈ entries.map Prod.snd := by
  obtain ⟨before, after, rfl, -⟩ := List.lookup_eq_some_iff.mp h
  simp

theorem Object.mem_ids_of_mem_parts {container part : Object} {id : ObjectId}
    (hpart : part ∈ container.parts) (hid : id ∈ part.ids) : id ∈ container.ids := by
  have hentry {entries : List (Bytes × Object)} (h : part ∈ entries.map Prod.snd) :
      id ∈ entryIds entries := by
    obtain ⟨entry, hentry, rfl⟩ := List.mem_map.mp h
    exact mem_entryIds.mpr ⟨entry, hentry, hid⟩
  cases container with
  | array items => exact mem_itemIds.mpr ⟨part, hpart, hid⟩
  | dictionary entries => exact hentry hpart
  | stream header => exact hentry hpart
  | _ => cases hpart

variable {find : ObjectId → Option Object}

/-- The first id stores an object in which the second occurs. -/
def Refers (find : ObjectId → Option Object) (id other : ObjectId) : Prop :=
  ∃ stored, find id = some stored ∧ other ∈ stored.ids

/-- References lead from the id back to it. -/
def OnCircle (find : ObjectId → Option Object) (id : ObjectId) : Prop :=
  Relation.TransGen (Refers find) id id

theorem Reaches.refers {object : Object} {id other : ObjectId} (h : Reaches find object id)
    (hrefers : Refers find id other) : Reaches find object other := by
  obtain ⟨stored, hfind, hmem⟩ := hrefers
  exact .through h hfind hmem

/-- The object occurs within another, or within what that refers to, at whatever remove. -/
inductive Occurs (find : ObjectId → Option Object) (object : Object) : Object → Prop
  | self : Occurs find object object
  | part {container part : Object} : Occurs find object container → part ∈ container.parts →
      Occurs find object part
  | stored {id : ObjectId} {stored : Object} : Occurs find object (.reference id) →
      find id = some stored → Occurs find object stored

/-- The value at the end of the references that begin with the stored one. -/
inductive Stands (find : ObjectId → Option Object) : Object → Object → Prop
  | direct {value : Object} : value.reference? = none → Stands find value value
  | through {id : ObjectId} {stored value : Object} : find id = some stored → stored ≠ .null →
      Stands find stored value → Stands find (.reference id) value

/-- The references that begin with the stored one end at an id under which there is nothing. -/
inductive Astray (find : ObjectId → Option Object) : Object → ObjectId → Prop
  | here {id : ObjectId} : find id = none ∨ find id = some .null → Astray find (.reference id) id
  | through {id other : ObjectId} {stored : Object} : find id = some stored →
      Astray find stored other → Astray find (.reference id) other

theorem Stands.reference?_eq_none {stored value : Object} (h : Stands find stored value) :
    value.reference? = none := by
  induction h with
  | direct hdirect => exact hdirect
  | through _ _ _ ih => exact ih

theorem Stands.eq_of_direct {stored value : Object} (h : Stands find stored value)
    (hdirect : stored.reference? = none) : value = stored := by
  cases h with
  | direct _ => rfl
  | through _ _ _ => cases hdirect

/-- Only null itself stands for null: a reference to null leads nowhere. -/
theorem Stands.eq_null {stored : Object} (h : Stands find stored .null) : stored = .null := by
  generalize hvalue : Object.null = value at h
  induction h with
  | direct _ => rfl
  | through _ hnull _ ih => exact absurd ((ih hvalue).trans hvalue.symm) hnull

theorem Stands.unique {stored value other : Object} (h : Stands find stored value)
    (hother : Stands find stored other) : other = value := by
  induction h with
  | direct hdirect => exact hother.eq_of_direct hdirect
  | through hfind _ _ ih =>
    cases hother with
    | direct hdirect => cases hdirect
    | through hfind' _ hrest =>
      rw [hfind] at hfind'
      cases hfind'
      exact ih hrest

/-- What stands for a value does not lead nowhere. -/
theorem Stands.not_astray {stored value : Object} {id : ObjectId} (h : Stands find stored value) :
    ¬ Astray find stored id := by
  intro hastray
  induction h with
  | direct hdirect => cases hastray <;> cases hdirect
  | through hfind hnull _ ih =>
    cases hastray with
    | here hnothing =>
      rcases hnothing with hnone | hnone
      · rw [hfind] at hnone
        cases hnone
      · rw [hfind] at hnone
        cases hnone
        exact hnull rfl
    | through hfind' hrest =>
      rw [hfind] at hfind'
      cases hfind'
      exact ih hrest

/-- An id that leads to what a stored value refers to leads to what its target refers to. -/
theorem Stands.transGen {stored value : Object} {id : ObjectId} (h : Stands find stored value)
    (hlead : ∀ other ∈ stored.ids, Relation.TransGen (Refers find) id other) :
    ∀ other ∈ value.ids, Relation.TransGen (Refers find) id other := by
  induction h with
  | direct _ => exact hlead
  | @through via stored _ hfind _ _ ih =>
    have hvia := hlead via (by simp [Object.ids])
    exact ih fun other hother => hvia.tail ⟨stored, hfind, hother⟩

/-- The first id of a chain of references leads to what their target refers to. -/
theorem Stands.transGen_reference {id : ObjectId} {value : Object}
    (h : Stands find (.reference id) value) :
    ∀ other ∈ value.ids, Relation.TransGen (Refers find) id other := by
  cases h with
  | direct hdirect => cases hdirect
  | through hfind _ hstands =>
    exact hstands.transGen fun other hother => .single ⟨_, hfind, hother⟩

end PdfConformance

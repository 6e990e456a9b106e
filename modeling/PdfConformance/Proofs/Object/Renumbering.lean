import Mathlib.Data.List.Nodup
import Mathlib.Logic.Equiv.Basic
import PdfConformance.Document
import PdfConformance.Fault

/-! # Other numbers for indirect objects

A document is renumbered by a permutation of the ids: what was stored under an id is stored under
the new one, and every reference follows it. What is looked up in the new document is what was
looked up in the old one, renumbered. -/

namespace PdfConformance

namespace Object

variable (π : Equiv.Perm ObjectId)

mutual

/-- The object with every reference renumbered. -/
def renumber : Object → Object
  | .reference id => .reference (π id)
  | .array items => .array (renumberItems items)
  | .dictionary entries => .dictionary (renumberEntries entries)
  | .stream header => .stream (renumberEntries header)
  | value => value

def renumberItems : List Object → List Object
  | [] => []
  | item :: items => item.renumber :: renumberItems items

def renumberEntries : List (Bytes × Object) → List (Bytes × Object)
  | [] => []
  | (key, value) :: entries => (key, value.renumber) :: renumberEntries entries

end

theorem renumberItems_eq_map (items : List Object) :
    renumberItems π items = items.map (renumber π) := by
  induction items with
  | nil => rfl
  | cons item items ih => rw [renumberItems, ih, List.map_cons]

theorem renumberEntries_eq_map (entries : List (Bytes × Object)) :
    renumberEntries π entries = entries.map fun entry => (entry.1, entry.2.renumber π) := by
  induction entries with
  | nil => rfl
  | cons entry entries ih => rw [renumberEntries, ih, List.map_cons]

theorem reference?_renumber (object : Object) :
    (object.renumber π).reference? = object.reference?.map π := by
  cases object <;> rfl

end Object

variable {π : Equiv.Perm ObjectId}

theorem Dict.get?_renumberEntries (entries : Dict) (key : Bytes) :
    get? (Object.renumberEntries π entries) key = (get? entries key).map (Object.renumber π) := by
  induction entries with
  | nil => rfl
  | cons entry entries ih =>
    rw [Object.renumberEntries, get?_cons, get?_cons, ih]
    split <;> rfl

/-- A filter is declared without references, or not at all. -/
theorem Dict.filteredOnlyBy_renumberEntries (header : Dict) (filter : String) :
    filteredOnlyBy (Object.renumberEntries π header) filter = filteredOnlyBy header filter := by
  unfold filteredOnlyBy
  rw [get?_renumberEntries]
  cases get? header (Text.Utf8.encode "Filter") with
  | none => rfl
  | some declared =>
    cases declared with
    | array items =>
      match items with
      | [] => rfl
      | [item] => cases item <;> rfl
      | first :: _ :: _ => cases first <;> rfl
    | _ => rfl

/-- The table with every object stored under its new id. -/
def ObjectTable.renumber (π : Equiv.Perm ObjectId) (t : ObjectTable) : ObjectTable where
  entries := t.entries.map fun entry => (π entry.1, entry.2.renumber π)
  nodup := by
    have hkeys : (t.entries.map fun entry => (π entry.1, entry.2.renumber π)).map Prod.fst =
        (t.entries.map Prod.fst).map π := by simp
    rw [hkeys]
    exact List.Nodup.map π.injective t.nodup

theorem lookup_renumber (entries : List (ObjectId × Object)) (id : ObjectId) :
    (entries.map fun entry => (π entry.1, entry.2.renumber π)).lookup (π id) =
      (entries.lookup id).map (Object.renumber π) := by
  induction entries with
  | nil => rfl
  | cons entry entries ih =>
    rw [List.map_cons, List.lookup_cons, List.lookup_cons, ih]
    by_cases heq : id = entry.1
    · simp [heq]
    · have hne : π id ≠ π entry.1 := π.injective.ne heq
      rw [beq_eq_false_iff_ne.mpr heq, beq_eq_false_iff_ne.mpr hne]

/-- The document with new numbers throughout. -/
def Document.renumber (π : Equiv.Perm ObjectId) (doc : Document) : Document :=
  { doc with trailer := Object.renumberEntries π doc.trailer, objects := doc.objects.renumber π }

theorem Document.get?_renumber (doc : Document) (id : ObjectId) :
    (doc.renumber π).get? (π id) = (doc.get? id).map (Object.renumber π) :=
  lookup_renumber doc.objects.entries id

/-- The fault with the id that it names, if any, renumbered. -/
def Fault.renumber (π : Equiv.Perm ObjectId) : Fault → Fault
  | dangling site id => dangling site (π id)
  | endless site id? depth bound => endless site (id?.map π) depth bound
  | fault => fault

end PdfConformance

import PdfConformance.Object

/-! # Documents

A document in memory: the version its header names, its trailer, and its indirect objects by id. -/

namespace PdfConformance

/-- Indirect objects; no id has two. -/
structure ObjectTable where
  entries : List (ObjectId × Object)
  nodup : (entries.map Prod.fst).Nodup

namespace ObjectTable

def empty : ObjectTable := ⟨[], List.nodup_nil⟩

def size (t : ObjectTable) : Nat := t.entries.length

def get? (t : ObjectTable) (id : ObjectId) : Option Object := t.entries.lookup id

def has (t : ObjectTable) (id : ObjectId) : Bool := (t.get? id).isSome

def erase (t : ObjectTable) (id : ObjectId) : ObjectTable where
  entries := t.entries.filter (fun e => e.1 ≠ id)
  nodup := (List.Sublist.map _ List.filter_sublist).nodup t.nodup

/-- The object takes the place of an earlier one of the same id. -/
def insert (t : ObjectTable) (id : ObjectId) (object : Object) : ObjectTable where
  entries := (id, object) :: (t.erase id).entries
  nodup := by
    refine List.nodup_cons.mpr ⟨?_, (t.erase id).nodup⟩
    simp [erase]

def ofList (entries : List (ObjectId × Object)) : ObjectTable :=
  entries.foldl (fun t e => t.insert e.1 e.2) empty

private theorem lookup_filter_ne (entries : List (ObjectId × Object)) (id other : ObjectId) :
    (entries.filter (fun e => e.1 ≠ id)).lookup other =
      if other = id then none else entries.lookup other := by
  induction entries with
  | nil => simp
  | cons e entries ih =>
    by_cases he : e.1 = id
    · rw [List.filter_cons_of_neg (by simpa using he), ih, List.lookup_cons]
      by_cases ho : other = id
      · simp [ho]
      · simp [ho, beq_eq_false_iff_ne.mpr (he ▸ ho : other ≠ e.1)]
    · rw [List.filter_cons_of_pos (by simpa using he), List.lookup_cons, List.lookup_cons]
      by_cases ho : other = e.1
      · simp [ho, he]
      · simpa [beq_eq_false_iff_ne.mpr ho] using ih

theorem get?_erase (t : ObjectTable) (id other : ObjectId) :
    (t.erase id).get? other = if other = id then none else t.get? other :=
  lookup_filter_ne t.entries id other

theorem get?_insert (t : ObjectTable) (id other : ObjectId) (object : Object) :
    (t.insert id object).get? other = if other = id then some object else t.get? other := by
  rw [get?, insert, List.lookup_cons, ← get?, get?_erase]
  by_cases h : other = id
  · simp [h]
  · simp [beq_eq_false_iff_ne.mpr h, h]

end ObjectTable

structure Document where
  header : String
  trailer : Dict
  objects : ObjectTable

namespace Document

def get? (doc : Document) (id : ObjectId) : Option Object := doc.objects.get? id

/-- The reference that is stored under a key. -/
def referenceIn? (entries : Dict) (key : String) : Option ObjectId :=
  (Dict.get? entries (Text.Utf8.encode key)).bind Object.reference?

end Document

end PdfConformance

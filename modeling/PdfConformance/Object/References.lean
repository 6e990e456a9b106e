import PdfConformance.Object

/-! # References within objects

`ids` lists the references that occur anywhere within an object; `Reaches` follows them from object
to object through a table of stored ones. -/

namespace PdfConformance

namespace Object

mutual

def ids : Object → List ObjectId
  | .reference id => [id]
  | .array items => itemIds items
  | .dictionary entries => entryIds entries
  | .stream header => entryIds header
  | _ => []

def itemIds : List Object → List ObjectId
  | [] => []
  | item :: items => item.ids ++ itemIds items

def entryIds : List (Bytes × Object) → List ObjectId
  | [] => []
  | (_, value) :: entries => value.ids ++ entryIds entries

end

theorem mem_itemIds {items : List Object} {id : ObjectId} :
    id ∈ itemIds items ↔ ∃ item ∈ items, id ∈ item.ids := by
  induction items with
  | nil => simp [itemIds]
  | cons item items ih => simp [itemIds, ih]

theorem mem_entryIds {entries : List (Bytes × Object)} {id : ObjectId} :
    id ∈ entryIds entries ↔ ∃ entry ∈ entries, id ∈ entry.2.ids := by
  induction entries with
  | nil => simp [entryIds]
  | cons entry entries ih => simp [entryIds, ih]

end Object

/-- The id occurs in the object, or in a stored object that the object reaches. -/
inductive Reaches (find : ObjectId → Option Object) (object : Object) : ObjectId → Prop
  | occurs {id : ObjectId} : id ∈ object.ids → Reaches find object id
  | through {via id : ObjectId} {stored : Object} :
      Reaches find object via → find via = some stored → id ∈ stored.ids → Reaches find object id

end PdfConformance

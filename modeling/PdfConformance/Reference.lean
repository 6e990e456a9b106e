import PdfConformance.Inquiry

/-! # Following references

A value may be a reference, which may lead to another reference, and so on. `follow` goes on until
it meets a value that is none, and gives up at an object that is missing or null, at one it has
passed before, and after `maxHops` references. Before each look-up the caller may cancel. -/

namespace PdfConformance

/-- Where a chain of references ends. -/
inductive Target where
  | found (value : Object)
  /-- The object is missing or null. -/
  | dangling (id : ObjectId)
  /-- The chain comes back to the object, or has passed too many before it. -/
  | endless (id : ObjectId) (hops : Nat)

/-- How many references are followed for one value. -/
def maxHops : Nat := 32

/-- Follows at most `left` more references after those `seen`, the latest of which comes first. -/
def follow (seen : List ObjectId) : (left : Nat) → Object → Inquiry Target
  | 0, .reference id => .pause (.done (.endless id seen.length))
  | left + 1, .reference id =>
    .pause <|
      if id ∈ seen then .done (.endless id seen.length)
      else .ask id fun
        | none | some .null => .done (.dangling id)
        | some value => follow (id :: seen) left value
  | _, value => .done (.found value)

def target (value : Object) : Inquiry Target := follow [] maxHops value

/-- The value that `stored` stands for. A value stored as null stands for itself. -/
def valueOf (site : Site) (stored : Object) : Inquiry Object := do
  match ← target stored with
  | .found value => return value
  | .dangling id => .fail (.dangling site id)
  | .endless id hops => .fail (.endless site (some id) hops .hops)

/-- The value that `stored` stands for, where null and what leads nowhere count as absent. A value
that is required must not lead nowhere. -/
def valueIfAny (site : Site) (required : Bool) (stored : Object) : Inquiry (Option Object) := do
  match ← target stored with
  | .found .null => return none
  | .found value => return some value
  | .dangling id => if required then .fail (.dangling site id) else return none
  | .endless id hops => .fail (.endless site (some id) hops .hops)

@[simp] theorem target_of_direct {value : Object} (h : value.reference? = none) :
    target value = .done (.found value) := by
  cases value with
  | reference _ => cases h
  | _ => rfl

end PdfConformance

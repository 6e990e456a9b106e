import PdfConformance.Judgement.Containers

/-! # Judgements

`deeper` judges the value of an entry one level deeper and, by `judge`, what that holds deeper
still. A stored object is not entered within itself, and containers nest to a bounded depth, so that
every judgement ends. `externalObject` and `resourceDictionary` are what callers ask for. -/

namespace PdfConformance

/-- The containers that are being judged: the stored objects among them, innermost first, and how
many there are in all. -/
structure Trail where
  within : List ObjectId
  depth : Nat
  deriving DecidableEq, Repr

namespace Trail

def start : Trail := ⟨[], 0⟩

/-- The stored value is a reference to an object that is being judged. -/
def revisits (trail : Trail) (stored : Object) : Bool :=
  stored.reference?.any fun id => trail.within.contains id

/-- One level deeper, by way of the stored value. -/
def push (trail : Trail) (stored : Object) : Trail :=
  ⟨stored.reference?.toList ++ trail.within, trail.depth + 1⟩

/-- The fault of going further by way of the stored value. -/
def stop (trail : Trail) (site : Site) (stored : Object) : Fault :=
  .endless site stored.reference? trail.depth (if trail.revisits stored then .cycle else .depth)

end Trail

/-- Enters the value of an entry, with at most `levels` more levels of containers. -/
def deeper (p : Profile) : (levels : Nat) → Trail → Enter
  | 0, trail, site, entry, _ => .fail (trail.stop site entry.stored)
  | levels + 1, trail, site, entry, schema =>
    if trail.revisits entry.stored then .fail (trail.stop site entry.stored)
    else judge p (deeper p levels (trail.push entry.stored)) schema entry.value

/-- An external object, given as it is or by reference. It must not lead nowhere; a null that is
given as it is has nothing to judge. -/
def externalObject (p : Profile) (maxDepth : Nat) (hint : Hint) (object : Object) :
    Inquiry Unit := do
  let site : Site := ⟨"caller", "XObject"⟩
  match ← valueIfAny site true object with
  | none => return
  | some value@(.stream _) => deeper p maxDepth .start site ⟨object, value⟩ (.external hint)
  | some value => unexpected site .stream value

/-- A resource dictionary with every external object it names. -/
def resourceDictionary (p : Profile) (maxDepth : Nat) (object : Object) : Inquiry Unit := do
  let site : Site := ⟨"caller", "Resources"⟩
  match ← valueOf site object with
  | value@(.dictionary _) => deeper p maxDepth .start site ⟨object, value⟩ .resources
  | value => unexpected site .dictionary value

end PdfConformance

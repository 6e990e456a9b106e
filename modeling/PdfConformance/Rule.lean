import PdfConformance.Fault
import PdfConformance.Object

/-! # Rules for entries

What the format says about one entry of a container, as data: its key, the shape of its value, when
it has to be there, the version that introduced it and a limit on its value. -/

namespace PdfConformance

/-- When an entry has to be present. -/
inductive Demand where
  | never
  | always
  | inStrictMode
  /-- In documents of the oldest version. -/
  | inOldestVersion
  /-- Unless JPEG 2000 is the only filter, whose data tell it themselves. -/
  | unlessJpx
  /-- Unless the data carry colour information: with JPEG 2000 as the only filter, and in relaxed
  mode also with CCITT fax. -/
  | unlessColoured
  deriving DecidableEq, Repr

namespace Demand

def jpx : String := "JPXDecode"

def fax : String := "CCITTFaxDecode"

/-- The demand is made of a container with this header. -/
def holds (p : Profile) (header : Dict) : Demand → Bool
  | never => false
  | always => true
  | inStrictMode => p.mode = .strict
  | inOldestVersion => p.version = .v1_0
  | unlessJpx => !Dict.filteredOnlyBy header jpx
  | unlessColoured =>
    !Dict.filteredOnlyBy header jpx && !(p.mode = .relaxed && Dict.filteredOnlyBy header fax)

end Demand

/-- A limit on values of one kind; values of other kinds are within it. -/
inductive Limit where
  /-- Arrays of this length. -/
  | length (n : Nat)
  | integer (n : Int)
  /-- Integers from the first to the second. -/
  | between (low high : Int)
  /-- Numbers that are this many tenths, to within 1/10000. -/
  | tenths (n : Int)
  /-- Names spelt as one of these words. -/
  | oneOf (words : List String)
  deriving DecidableEq, Repr

namespace Limit

def isTenths (n units : Int) : Bool :=
  (10000 * units - 1000 * n * Real32.unit).natAbs < Real32.unit

/-- An infinity or what is no number equals no number of tenths. -/
def holds : Limit → Object → Bool
  | length n, .array items => items.length = n
  | integer n, .integer value => value = n
  | between low high, .integer value => low ≤ value ∧ value ≤ high
  | tenths n, .integer value => isTenths n (value * Real32.unit)
  | tenths n, .real value => value.units?.any (isTenths n)
  | oneOf words, .name spelling => words.any fun word => Text.Utf8.encode word = spelling
  | _, _ => true

def reason : Limit → Reason
  | length _ => .arrayLength
  | integer _ => .integerValue
  | between _ _ => .integerRange
  | tenths _ => .numberValue
  | oneOf _ => .vocabulary

end Limit

structure Rule where
  key : String
  shape : Shape
  demand : Demand
  introduced : Version
  limit? : Option Limit
  deriving DecidableEq, Repr

namespace Rule

/-- An entry that is required when the demand holds, in every version. -/
def demanded (demand : Demand) (key : String) (shape : Shape) : Rule :=
  ⟨key, shape, demand, .v1_0, none⟩

def required (key : String) (shape : Shape) : Rule := demanded .always key shape

def optional (key : String) (shape : Shape) : Rule := demanded .never key shape

def since (version : Version) (rule : Rule) : Rule := { rule with introduced := version }

def limited (limit : Limit) (rule : Rule) : Rule := { rule with limit? := some limit }

end Rule

/-- The rules for a container that is not entered any deeper, and the container's name. -/
structure RuleTable where
  container : String
  rules : List Rule
  deriving DecidableEq, Repr

end PdfConformance

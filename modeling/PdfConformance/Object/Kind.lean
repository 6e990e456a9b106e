import PdfConformance.Object

/-! # Kinds of objects

What can be told of an object without following references. The two forms of a string are kinds of
their own. -/

namespace PdfConformance

inductive Kind where
  | null
  | boolean
  | integer
  | real
  | name
  | literalString
  | hexString
  | array
  | dictionary
  | stream
  | reference
  deriving DecidableEq, Repr

namespace Kind

/-- The name of a kind in messages. -/
def label : Kind → String
  | null => "null"
  | boolean => "boolean"
  | integer => "integer"
  | real => "real"
  | name => "name"
  | literalString => "literal string"
  | hexString => "hex string"
  | array => "array"
  | dictionary => "dictionary"
  | stream => "stream"
  | reference => "indirect reference"

def isString (kind : Kind) : Bool := kind = literalString ∨ kind = hexString

def isNumber (kind : Kind) : Bool := kind = integer ∨ kind = real

end Kind

def Object.kind : Object → Kind
  | .null => .null
  | .boolean _ => .boolean
  | .integer _ => .integer
  | .real _ => .real
  | .name _ => .name
  | .string .literal _ => .literalString
  | .string .hexadecimal _ => .hexString
  | .array _ => .array
  | .dictionary _ => .dictionary
  | .stream _ => .stream
  | .reference _ => .reference

end PdfConformance

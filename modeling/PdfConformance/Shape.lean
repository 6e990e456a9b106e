import PdfConformance.Object.Kind

/-! # Shapes of values

What the format expects an entry to hold. `admits` is the part of it that the kind of a value
decides; what a shape asks of the contents is `Shape.check`, where references can be followed. -/

namespace PdfConformance

inductive Shape where
  | boolean
  | integer
  | number
  | name
  | string
  | array
  | dictionary
  | stream
  /-- Four numbers. -/
  | rectangle
  /-- A string that writes a moment. -/
  | date
  | numbers
  | integers
  | strings
  | names
  /-- A file's name, or the dictionary that describes the file. -/
  | fileSpecification
  /-- A device space by name, or an array that begins with the name of a family; never a pattern. -/
  | colourSpace
  /-- A value of one of some kinds, under the name messages give them together. -/
  | anyOf (label : String) (kinds : List Kind)
  deriving DecidableEq, Repr

namespace Shape

/-- The name of a shape in messages. -/
def label : Shape → String
  | boolean => "boolean"
  | integer => "integer"
  | number => "number"
  | name => "name"
  | string => "string"
  | array => "array"
  | dictionary => "dictionary"
  | stream => "stream"
  | rectangle => "rectangle"
  | date => "date string"
  | numbers => "array of numbers"
  | integers => "array of integers"
  | strings => "array of strings"
  | names => "array of names"
  | fileSpecification => "file specification"
  | colourSpace => "colour space"
  | anyOf label _ => label

/-- The kinds of the values a shape is for. -/
def admits (shape : Shape) (kind : Kind) : Bool :=
  match shape with
  | boolean => kind = .boolean
  | integer => kind = .integer
  | number => kind.isNumber
  | name => kind = .name
  | string | date => kind.isString
  | array | rectangle | numbers | integers | strings | names => kind = .array
  | dictionary => kind = .dictionary
  | stream => kind = .stream
  | fileSpecification => kind.isString || kind = .dictionary
  | colourSpace => kind = .name ∨ kind = .array
  | anyOf _ kinds => kinds.contains kind

/-- The shape of every element, where a shape is for arrays whose elements have one. -/
def element? : Shape → Option Shape
  | numbers => some number
  | integers => some integer
  | strings => some string
  | names => some name
  | _ => none

end Shape

end PdfConformance

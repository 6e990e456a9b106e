import PdfConformance.Shape
import PdfConformance.Version

/-! # Faults

Why an object does not conform: one constructor for each cause, with the place it was met, and the
message that tells it. -/

namespace PdfConformance

/-- An entry by the name of its container and its key, or a value by the place it is held in. -/
structure Site where
  container : String
  key : String
  deriving DecidableEq, Repr

/-- Why a value of the expected kind is still not acceptable. -/
inductive Reason where
  | arrayLength
  | integerValue
  | integerRange
  | numberValue
  | vocabulary
  | invalidDate
  | rectangleLength
  | emptyColourSpace
  | patternColourSpace
  | unknownColourSpace
  /-- The tag says form and the caller image, or the other way round. -/
  | contradictedHint
  | stencilAsMask
  | maskedStencil
  | maskedMask
  | nestedAlternates
  | prepressEntryCount
  | prepressVersion
  deriving DecidableEq, Repr

def Reason.text : Reason → String
  | arrayLength => "array has the wrong number of elements"
  | integerValue => "integer has an illegal value"
  | integerRange => "integer is out of range"
  | numberValue => "number has an illegal value"
  | vocabulary => "name is not in the allowed vocabulary"
  | invalidDate => "not a valid date"
  | rectangleLength => "rectangle needs exactly four numbers"
  | emptyColourSpace => "colour space array is empty"
  | patternColourSpace => "pattern colour spaces are not allowed here"
  | unknownColourSpace => "unknown colour space"
  | contradictedHint => "subtype contradicts the expected kind"
  | stencilAsMask => "an explicit mask must not itself be an image mask"
  | maskedStencil => "an image mask cannot be masked"
  | maskedMask => "a mask image cannot carry a mask of its own"
  | nestedAlternates => "alternate images and masks cannot have alternates"
  | prepressEntryCount => "must have exactly one entry keyed 1.3 or 2.0"
  | prepressVersion => "unknown OPI version"

/-- Which of the limits on following the document was reached. -/
inductive Bound where
  /-- Too many references in a row, or a circle of them. -/
  | hops
  /-- A stored object within itself. -/
  | cycle
  /-- Containers nested too deep. -/
  | depth
  deriving DecidableEq, Repr

inductive Fault where
  | missingEntry (site : Site)
  | wrongKind (site : Site) (expected : Shape) (found : Kind)
  | constraint (site : Site) (reason : Reason)
  | tooNew (site : Site) (since declared : Version)
  | conflict (container first second : String)
  | missingCompanion (site : Site) (requiredBy : String)
  | unknownSubtype (container subtype : String)
  | unsupported (container construct : String)
  | dangling (site : Site) (id : ObjectId)
  | endless (site : Site) (id : Option ObjectId) (depth : Nat) (bound : Bound)
  | malformed (site : Site) (reason : Reason)
  | cancelled
  deriving DecidableEq, Repr

namespace Fault

private def about (site : Site) (rest : String) : String :=
  site.container ++ ": entry \"" ++ site.key ++ "\"" ++ rest

/-- Names and keys stand in a message as they are. -/
def message : Fault → String
  | missingEntry site => site.container ++ ": missing required entry \"" ++ site.key ++ "\""
  | wrongKind site expected found =>
    about site (" is " ++ found.label ++ ", expected " ++ expected.label)
  | constraint site reason => about site (": " ++ reason.text)
  | tooNew site since declared =>
    about site (" requires PDF " ++ since.text ++ ", document declares " ++ declared.text)
  | conflict container first second =>
    container ++ ": entries \"" ++ first ++ "\" and \"" ++ second ++ "\" are mutually exclusive"
  | missingCompanion site requiredBy =>
    about site (" is required when \"" ++ requiredBy ++ "\" is present")
  | unknownSubtype container subtype => container ++ ": unknown Subtype \"" ++ subtype ++ "\""
  | unsupported container construct => container ++ ": " ++ construct ++ " is not supported"
  | dangling site id =>
    about site (" points to missing object " ++ id.text)
  | endless site _ depth _ =>
    about site (" exceeds the recursion limit at depth " ++ toString depth)
  | malformed site reason =>
    site.container ++ ": malformed at \"" ++ site.key ++ "\": " ++ reason.text
  | cancelled => "validation cancelled"

end Fault

/-- A present entry introduced in `since` is a fault where the profile refuses it. -/
def Profile.checkAge (p : Profile) (site : Site) (since : Version) : Except Fault Unit :=
  if p.refuses since then .error (.tooNew site since p.version) else .ok ()

end PdfConformance

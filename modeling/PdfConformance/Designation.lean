import PdfConformance.Grammar

/-! # Designations

What an external object says it is. In relaxed mode an object without a usable `Subtype` is taken
for what the caller expects, or else for what its header looks like. -/

namespace PdfConformance

inductive Designation where
  | form
  | image
  | postScript
  /-- A `Subtype` the format does not define. -/
  | unknown (subtype : String)
  | untagged
  deriving DecidableEq, Repr

namespace Designation

/-- The designation by the text of the `Subtype`. -/
def ofSubtype : Option String → Designation
  | none => untagged
  | some subtype =>
    if subtype = "Form" then form
    else if subtype = "Image" then image
    else if subtype = "PS" then postScript
    else unknown subtype

/-- What an object without a usable `Subtype` is taken for: with no hint, a form if it has a
bounding box, and an image otherwise. -/
def infer (header : Dict) : Hint → Designation
  | .form => form
  | .image => image
  | .any => if Dict.has header (Text.Utf8.encode "BBox") then form else image

def isUsable : Designation → Bool
  | unknown _ | untagged => false
  | form | image | postScript => true

/-- A form where an image is expected, or an image where a form is. -/
def contradicts : Designation → Hint → Bool
  | form, .image | image, .form => true
  | _, _ => false

end Designation

end PdfConformance

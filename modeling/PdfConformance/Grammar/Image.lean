import PdfConformance.Grammar.Parts

/-! # The grammar of images

An image is checked for its tags and its size, then for `ImageMask`, which tells whether it is a
stencil; what it may carry besides depends on that and on its use. -/

namespace PdfConformance

/-- The name of an image in messages. -/
def ImageUse.container : ImageUse → String
  | primary => "imageStream"
  | alternate => "alternateImageStream"
  | softMask => "softMaskStream"
  | explicitMask => "maskImageStream"

namespace Grammar

open Rule

/-- Masks are tagged; what makes any other image one is its place, or has been read already. -/
def imageTags : ImageUse → List Rule
  | .primary | .alternate => []
  | .softMask => [
    optional "Type" .name |> limited (.oneOf ["XObject"]),
    demanded .inStrictMode "Subtype" .name |> limited (.oneOf ["Image"])]
  | .explicitMask => [
    optional "Type" .name |> limited (.oneOf ["XObject"]),
    required "Subtype" .name |> limited (.oneOf ["Image"])]

/-- What is checked first of an image. -/
def imageHead (use : ImageUse) : RuleTable where
  container := use.container
  rules := imageTags use ++ [required "Width" .integer, required "Height" .integer]

def imageMask : Rule := optional "ImageMask" .boolean

/-- Stencils have one bit for each sample and no colours. -/
def sampleClauses (stencil : Bool) : List Clause :=
  if stencil then [.obey (optional "BitsPerComponent" .integer |> limited (.integer 1))]
  else [
    .obey (demanded .unlessColoured "ColorSpace" .colourSpace),
    .obey (demanded .unlessJpx "BitsPerComponent" .integer)]

def renderingClauses : List Clause := [
  .obey (optional "Intent" .name |> since .v1_1 |> limited (.oneOf
    ["AbsoluteColorimetric", "RelativeColorimetric", "Saturation", "Perceptual"])),
  .obey (optional "Decode" .numbers),
  .obey (optional "Interpolate" .boolean)]

def mask : Rule :=
  optional "Mask" (.anyOf "image stream or colour key array" [.stream, .array]) |> since .v1_3

/-- A mask is an image, or an array of colours to leave out. Stencils have none, and a mask that is
an image has no further image. -/
def maskClause (use : ImageUse) (stencil : Bool) : Clause :=
  if stencil then .absent mask .maskedStencil
  else if use = .explicitMask then .enter mask (.barred ⟨use.container, mask.key⟩ .maskedMask)
  else .enter mask (.image .explicitMask)

def alternates : Rule := optional "Alternates" .array |> since .v1_3

/-- An image of its own, or a dictionary that holds one. -/
def alternateShape : Shape :=
  .anyOf "image stream or alternate image dictionary" [.stream, .dictionary]

/-- Only a primary image can be replaced. -/
def alternatesClause (use : ImageUse) : Clause :=
  if use = .primary then .enter alternates .alternates else .empty alternates .nestedAlternates

/-- What is checked of an image once it is known whether it is a stencil. -/
def image (use : ImageUse) (stencil : Bool) : Sheet where
  container := use.container
  clauses :=
    (if use = .explicitMask ∧ stencil then [.never imageMask.key .stencilAsMask] else [])
      ++ sampleClauses stencil ++ renderingClauses
      ++ [maskClause use stencil, alternatesClause use,
        .enter (optional "SMask" .stream |> since .v1_4) (.image .softMask)]
      ++ (if use = .softMask then [.obey (optional "Matte" .numbers |> since .v1_4)] else [])
      ++ [.obey (optional "SMaskInData" .integer |> limited (.between 0 2)),
        .obey resourceName,
        .obey structParent,
        .obey (optional "ID" .string |> since .v1_3),
        prepress, metadata, optionalContent]

def alternateImage : Sheet where
  container := "alternateImageDict"
  clauses := [
    .obey (optional "DefaultForPrinting" .boolean),
    .enter (required "Image" .stream) (.image .alternate),
    optionalContent]

end Grammar

end PdfConformance

import PdfConformance.Grammar.Parts

/-! # The grammar of forms and resources -/

namespace PdfConformance.Grammar

open Rule

def form : Sheet where
  container := "formStream"
  clauses := [
    .obey (optional "FormType" .integer |> limited (.integer 1)),
    .obey (required "BBox" .rectangle),
    .obey (optional "Matrix" .numbers |> limited (.length 6)),
    .enter (optional "Resources" .dictionary |> since .v1_2) .resources,
    .enter (optional "Group" .dictionary |> since .v1_4) (.table transparencyGroup),
    .enter (optional "Ref" .dictionary |> since .v1_4) (.table referencedPage),
    metadata,
    .enterWith (optional "PieceInfo" .dictionary |> since .v1_3)
      (optional "LastModified" .date |> since .v1_3) pieceInfo .pieceInfo,
    .exclude structParent (optional "StructParents" .integer |> since .v1_3),
    prepress,
    optionalContent,
    .obey resourceName]

/-- Of the categories of resources only external objects are entered. -/
def resources : Sheet where
  container := "resourceDict"
  clauses := [
    .obey (optional "ExtGState" .dictionary),
    .obey (optional "ColorSpace" .dictionary),
    .obey (optional "Pattern" .dictionary |> since .v1_2),
    .obey (optional "Shading" .dictionary |> since .v1_3),
    .obey (optional "Font" .dictionary),
    .obey (optional "ProcSet" .names),
    .obey (optional "Properties" .dictionary |> since .v1_2),
    .enter (optional "XObject" .dictionary) .externals]

end PdfConformance.Grammar

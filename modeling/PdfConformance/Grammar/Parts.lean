import PdfConformance.Grammar

/-! # Parts of external objects

The tags of an external object, the clauses that images and forms share, and the tables of the
containers that are checked for their own entries only: metadata, optional content, the data of an
application, the attributes of a group, the page a form stands for, and prepress dictionaries. -/

namespace PdfConformance.Grammar

open Rule

/-- The name of an external object in messages, before it is known for an image or a form. -/
def external : String := "xObjectStream"

def externalType : Rule := optional "Type" .name |> limited (.oneOf ["XObject"])

/-- What the absence of the tag means is not for the rule to say. -/
def externalSubtype : Rule := optional "Subtype" .name

def metadataStream : RuleTable where
  container := "metadataStream"
  rules := [
    demanded .inStrictMode "Type" .name |> limited (.oneOf ["Metadata"]),
    demanded .inStrictMode "Subtype" .name |> limited (.oneOf ["XML"])]

def optionalContentDictionary : RuleTable where
  container := "optionalContent"
  rules := [demanded .inStrictMode "Type" .name |> limited (.oneOf ["OCG", "OCMD"])]

/-- The name of what applications keep with a form. -/
def pieceInfo : String := "pieceInfo"

def pieceData : RuleTable where
  container := "pageDataDict"
  rules := [required "LastModified" .date]

def transparencyGroup : RuleTable where
  container := "groupAttributes"
  rules := [
    optional "Type" .name |> limited (.oneOf ["Group"]),
    required "S" .name |> limited (.oneOf ["Transparency"]),
    optional "CS" .colourSpace,
    optional "I" .boolean,
    optional "K" .boolean]

def referencedPage : RuleTable where
  container := "referenceDict"
  rules := [
    required "F" .fileSpecification,
    required "Page" (.anyOf "page number or page label" [.integer, .literalString, .hexString]),
    optional "ID" .strings |> limited (.length 2)]

def inks : Rule :=
  optional "Inks" (.anyOf "colorant name or array" [.name, .array])
    |> limited (.oneOf ["full_color", "registration"])

/-- The name of the dictionary that holds a prepress dictionary under its version. -/
def prepressVersions : String := "opiVersionDict"

def prepressKey : String := "OPI"

/-- The prepress dictionary of version 1.3. -/
def prepress13 : RuleTable where
  container := "opiDictV13"
  rules := [
    optional "Type" .name |> limited (.oneOf ["OPI"]),
    required "Version" .number |> limited (.tenths 13),
    required "F" .fileSpecification,
    optional "ID" .string,
    optional "Comments" .string,
    required "Size" .integers |> limited (.length 2),
    required "CropRect" .rectangle,
    optional "CropFixed" .rectangle,
    required "Position" .numbers |> limited (.length 8),
    optional "Resolution" .numbers |> limited (.length 2),
    optional "ColorType" .name |> limited (.oneOf ["Process", "Spot", "Separation"]),
    optional "Color" .array |> limited (.length 5),
    optional "Tint" .number,
    optional "Overprint" .boolean,
    optional "ImageType" .integers |> limited (.length 2),
    optional "GrayMap" .integers,
    optional "Transparency" .boolean,
    optional "Tags" .array,
    inks]

/-- The prepress dictionary of version 2.0. -/
def prepress20 : RuleTable where
  container := "opiDictV20"
  rules := [
    optional "Type" .name |> limited (.oneOf ["OPI"]),
    required "Version" .number |> limited (.tenths 20),
    required "F" .fileSpecification,
    optional "MainImage" .string,
    optional "Tags" .array,
    optional "Size" .numbers |> limited (.length 2),
    optional "CropRect" .rectangle,
    optional "Overprint" .boolean,
    inks,
    optional "IncludedImageDimensions" .integers |> limited (.length 2),
    optional "IncludedImageQuality" .integer |> limited (.between 1 3)]

/-- The table for a prepress dictionary under this key. -/
def prepressTable? (key : String) : Option RuleTable :=
  if key = "1.3" then some prepress13 else if key = "2.0" then some prepress20 else none

def prepress : Clause := .enter (optional prepressKey .dictionary |> since .v1_2) .prepress

def metadata : Clause := .inspect (optional "Metadata" .stream |> since .v1_4) metadataStream

def optionalContent : Clause :=
  .inspect (optional "OC" .dictionary |> since .v1_5) optionalContentDictionary

/-- The name under which the resources list the object, superseded by that list. -/
def resourceName : Rule := demanded .inOldestVersion "Name" .name

def structParent : Rule := optional "StructParent" .integer |> since .v1_3

end PdfConformance.Grammar

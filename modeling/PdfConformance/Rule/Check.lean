import PdfConformance.Reference
import PdfConformance.Rule
import PdfConformance.Timestamp.Reader

/-! # Checking entries against rules

`Rule.check` holds one entry of a container to its rule. Where two faults meet in one entry the
first of these is reported: it is missing, it leads nowhere, its value has the wrong shape, it
exceeds the limit, it is newer than the document. -/

namespace PdfConformance

/-- An element of an array, held by the array's own site. -/
def Shape.checkElement (site : Site) (shape : Shape) (item : Object) : Inquiry Unit := do
  let value ← valueOf site item
  .require (shape.admits value.kind) (.wrongKind site shape value.kind)

namespace ColourSpace

def devices : List String := ["DeviceGray", "DeviceRGB", "DeviceCMYK"]

/-- What an array that describes a colour space may begin with. -/
def families : List String :=
  ["CalGray", "CalRGB", "Lab", "ICCBased", "Indexed", "Separation", "DeviceN"] ++ devices

def checkName (site : Site) (known : List String) (name : String) : Inquiry Unit :=
  if name = "Pattern" then .fail (.constraint site .patternColourSpace)
  else .require (known.contains name) (.constraint site .unknownColourSpace)

/-- The first element names the family; the others belong to the family and are not looked at. -/
def checkItems (site : Site) : List Object → Inquiry Unit
  | [] => .fail (.constraint site .emptyColourSpace)
  | first :: _ => do
    let value ← valueOf site first
    match value.nameText? with
    | some name => checkName site families name
    | none => .fail (.wrongKind site (.anyOf "colour space family name" [.name]) value.kind)

end ColourSpace

/-- What a shape asks of the elements of an array it admits. -/
def Shape.checkItems (site : Site) : Shape → List Object → Inquiry Unit
  | .colourSpace, items => ColourSpace.checkItems site items
  | .rectangle, items => do
    .require (items.length = 4) (.constraint site .rectangleLength)
    items.forM (Shape.number.checkElement site)
  | shape, items =>
    match shape.element? with
    | some element => items.forM (element.checkElement site)
    | none => return

/-- What a shape asks of the contents of a value of a kind it admits. -/
def Shape.checkContents (p : Profile) (site : Site) (shape : Shape) : Object → Inquiry Unit
  | .string _ content =>
    if shape = .date then
      .require (Timestamp.read? p.mode content).isSome (.constraint site .invalidDate)
    else return
  | .name spelling =>
    if shape = .colourSpace then
      ColourSpace.checkName site ColourSpace.devices (Text.Utf8.decodeLossy spelling)
    else return
  | .array items => shape.checkItems site items
  | _ => return

def Shape.check (p : Profile) (site : Site) (shape : Shape) (value : Object) : Inquiry Unit := do
  .require (shape.admits value.kind) (.wrongKind site shape value.kind)
  shape.checkContents p site value

/-- An entry as it is stored and the value it stands for. -/
structure Entry where
  stored : Object
  value : Object

namespace Rule

def checkLimit (site : Site) (limit? : Option Limit) (value : Object) : Inquiry Unit :=
  match limit? with
  | some limit => .require (limit.holds value) (.constraint site limit.reason)
  | none => return

/-- A rule is in force, and can require its entry, when the document's version covers it. -/
def isRequired (p : Profile) (header : Dict) (rule : Rule) : Bool :=
  p.covers rule.introduced && rule.demand.holds p header

/-- The entry, if it is present and the rule finds no fault with it. -/
def check (p : Profile) (container : String) (header : Dict) (rule : Rule) :
    Inquiry (Option Entry) :=
  let site : Site := ⟨container, rule.key⟩
  let required := rule.isRequired p header
  let absent : Inquiry (Option Entry) :=
    if required then .fail (.missingEntry site) else return none
  match Dict.get? header (Text.Utf8.encode rule.key) with
  | none => absent
  | some stored => do
    match ← valueIfAny site required stored with
    | none => absent
    | some value =>
      rule.shape.check p site value
      checkLimit site rule.limit? value
      .ofExcept (p.checkAge site rule.introduced)
      return some ⟨stored, value⟩

end Rule

/-- The rules are checked in their order. -/
def RuleTable.check (p : Profile) (table : RuleTable) (header : Dict) : Inquiry Unit :=
  table.rules.forM fun rule => do
    let _ ← rule.check p table.container header
    return

end PdfConformance

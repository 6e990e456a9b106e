import PdfConformance.Document
import PdfConformance.Judgement

/-! # Inspecting a document

Judging what the pages of a document show: the resources of every page, which it may inherit from
the nodes above it, its thumbnail, and any one object by its id. Which pages there are is not decided
here: they are inspected as they are listed, each by its id. The first obstacle ends an inspection. -/

namespace PdfConformance

/-- What ends an inspection. -/
inductive Obstacle where
  | nonconforming (cause : Fault)
  | unsupportedVersion (header : String)
  /-- A page, or a node above it, is not stored as a dictionary. -/
  | brokenNode (id : ObjectId)
  /-- The node above is below, or too far above. -/
  | endlessTree (id : ObjectId)
  deriving DecidableEq, Repr

def Obstacle.message : Obstacle → String
  | nonconforming cause => "Validation failed: " ++ cause.message
  | unsupportedVersion header => "Unsupported PDF version: " ++ header
  | brokenNode id => "Invalid PDF: page tree node " ++ id.text ++ " is not a dictionary"
  | endlessTree id => "Invalid PDF: page tree loops through " ++ id.text

/-- How documents are inspected. The version is the header's if none is given; a caller who can
cancel may have done so. -/
structure Settings where
  mode : Mode := .relaxed
  maxDepth : Nat := 64
  version? : Option Version := none
  cancelled? : Option Bool := none
  deriving DecidableEq, Repr

/-- A caller who has cancelled grants no look-up. -/
def Settings.patience (settings : Settings) : Option Nat :=
  if settings.cancelled? = some true then some 0 else none

namespace Document

def profile (doc : Document) (settings : Settings) : Except Obstacle Profile :=
  match settings.version? with
  | some version => .ok ⟨version, settings.mode⟩
  | none => (Profile.ofHeader doc.header settings.mode).mapError .unsupportedVersion

def conclude (doc : Document) (settings : Settings) (inquiry : Inquiry Unit) :
    Except Obstacle Unit :=
  (inquiry.verdict doc.get? settings.patience).mapError .nonconforming

def storedNode (doc : Document) (id : ObjectId) : Except Obstacle Dict :=
  match doc.get? id with
  | some (.dictionary entries) => .ok entries
  | _ => .error (.brokenNode id)

/-- How many nodes are looked at for one page, itself included. -/
def maxAncestors : Nat := 256

/-- The value a node has or inherits from the nodes above it, where at most `left` more nodes are
looked at after those `seen`. -/
def inheritedFrom (doc : Document) (key : Bytes) :
    (left : Nat) → List ObjectId → Dict → Except Obstacle (Option Object)
  | left, seen, node =>
    match Dict.get? node key, referenceIn? node "Parent" with
    | some value, _ => .ok (some value)
    | none, none => .ok none
    | none, some parent =>
      if parent ∈ seen then .error (.endlessTree parent)
      else
        match left with
        | 0 => .error (.endlessTree parent)
        | left + 1 => do
          let node ← doc.storedNode parent
          doc.inheritedFrom key left (parent :: seen) node

def inherited? (doc : Document) (page : ObjectId) (key : String) :
    Except Obstacle (Option Object) := do
  let node ← doc.storedNode page
  doc.inheritedFrom (Text.Utf8.encode key) (maxAncestors - 1) [page] node

def inspectResources (doc : Document) (settings : Settings) (p : Profile) (page : ObjectId) :
    Except Obstacle Unit := do
  match ← doc.inherited? page "Resources" with
  | some resources => doc.conclude settings (resourceDictionary p settings.maxDepth resources)
  | none => return

def inspectThumbnail (doc : Document) (settings : Settings) (p : Profile) (page : ObjectId) :
    Except Obstacle Unit := do
  let node ← doc.storedNode page
  match Dict.get? node (Text.Utf8.encode "Thumb") with
  | some thumb => doc.conclude settings (externalObject p settings.maxDepth .image thumb)
  | none => return

/-- The resources of every page listed that has or inherits some. -/
def inspectPageResources (doc : Document) (settings : Settings) (pages : List ObjectId) :
    Except Obstacle Unit := do
  let p ← doc.profile settings
  pages.forM (doc.inspectResources settings p)

/-- The thumbnails of the pages listed that have one. -/
def inspectThumbnails (doc : Document) (settings : Settings) (pages : List ObjectId) :
    Except Obstacle Unit := do
  let p ← doc.profile settings
  pages.forM (doc.inspectThumbnail settings p)

def inspectObject (doc : Document) (settings : Settings) (id : ObjectId) (hint : Hint) :
    Except Obstacle Unit := do
  let p ← doc.profile settings
  doc.conclude settings (externalObject p settings.maxDepth hint (.reference id))

end Document

end PdfConformance

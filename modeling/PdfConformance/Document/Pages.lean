import PdfConformance.Document

/-! # The pages of a document

`pages` lists the pages in reading order by walking the page tree from the catalog: the `Kids` of a
node of type `Pages` from left to right, and what is of type `Page` among them. As many kids are
looked at as the document has objects, so that a tree with circles is walked to an end. -/

namespace PdfConformance.Document

/-- References to references that are followed for one object. -/
def maxAliases : Nat := 128

/-- The value at the end of at most `left` references. -/
def direct? (doc : Document) : (left : Nat) → Object → Option Object
  | 0, .reference _ => none
  | left + 1, .reference id => (doc.get? id).bind (doc.direct? left)
  | _, value => some value

/-- The value of an indirect object that is not a reference itself. -/
def object? (doc : Document) (id : ObjectId) : Option Object :=
  (doc.get? id).bind (doc.direct? maxAliases)

def dictionary? (doc : Document) (id : ObjectId) : Option Dict :=
  match doc.object? id with
  | some (.dictionary entries) => some entries
  | _ => none

/-- What a node of the page tree has below it. -/
def kids (doc : Document) (id : ObjectId) : List Object :=
  match (doc.dictionary? id).bind fun node =>
      (Dict.get? node (Text.Utf8.encode "Kids")).bind (doc.direct? maxAliases) with
  | some (.array items) => items
  | _ => []

/-- The root of the page tree. -/
def pageRoot? (doc : Document) : Option ObjectId := do
  let root ← referenceIn? doc.trailer "Root"
  let catalog ← doc.dictionary? root
  referenceIn? catalog "Pages"

/-- An element of `Kids`. -/
inductive PageNode where
  | page (id : ObjectId)
  | branch (id : ObjectId)
  | other

/-- A node is told by a type that is stored as a name. -/
def pageNode (doc : Document) (kid : Object) : PageNode :=
  match kid with
  | .reference id =>
    match (doc.dictionary? id).bind (Dict.get? · (Text.Utf8.encode "Type")) with
    | some (.name spelling) =>
      if spelling = Text.Utf8.encode "Page" then .page id
      else if spelling = Text.Utf8.encode "Pages" then .branch id
      else .other
    | _ => .other
  | _ => .other

/-- The next kid to look at, with what is left of its siblings and of their elders' siblings. -/
def nextKid? : List Object → List (List Object) → Option (Object × List Object × List (List Object))
  | kid :: rest, elders => some (kid, rest, elders)
  | [], [] => none
  | [], siblings :: elders => nextKid? siblings elders

/-- The number of levels with siblings left beyond which branches are passed over. -/
def maxLevels : Nat := 256

/-- The pages among the next `budget` kids. -/
def pagesFrom (doc : Document) : (budget : Nat) → List Object → List (List Object) → List ObjectId
  | 0, _, _ => []
  | budget + 1, siblings, elders =>
    match nextKid? siblings elders with
    | none => []
    | some (kid, rest, elders) =>
      match doc.pageNode kid with
      | .page id => id :: doc.pagesFrom budget rest elders
      | .branch id =>
        if elders.length < maxLevels then
          doc.pagesFrom budget (doc.kids id) (if rest.isEmpty then elders else rest :: elders)
        else doc.pagesFrom budget rest elders
      | .other => doc.pagesFrom budget rest elders

/-- The pages in reading order. A page that the tree lists twice is listed twice. -/
def pages (doc : Document) : List ObjectId :=
  match doc.pageRoot? with
  | some root => doc.pagesFrom doc.objects.size (doc.kids root) []
  | none => []

/-- The pages with their numbers, from 1. -/
def numberedPages (doc : Document) : List (Nat × ObjectId) :=
  (doc.pages.zipIdx 1).map Prod.swap

end PdfConformance.Document

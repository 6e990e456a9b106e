import PdfConformance.Document.Pages
import PdfConformance.Inspection

/-! # Sessions

A document that is edited and inspected step by step, under settings that can change. -/

namespace PdfConformance

structure Session where
  document : Document
  settings : Settings

namespace Session

inductive Step where
  | pages
  | pageResources
  | pageThumbnails
  | object (id : ObjectId) (hint : Hint)
  | insert (id : ObjectId) (object : Object)
  | remove (id : ObjectId)
  | trailer (trailer : Dict)
  | header (header : String)
  | configure (settings : Settings)
  | cancel

inductive Answer where
  | pages (pages : List (Nat × ObjectId))
  | outcome (outcome : Except Obstacle Unit)
  /-- There was an object of that id before; how many objects there are now. -/
  | inserted (replaced : Bool) (objects : Nat)
  /-- There was an object of that id; how many objects there are now. -/
  | removed (present : Bool) (objects : Nat)
  | trailer (entries : Nat)
  | header (header : String)
  | settings (settings : Settings)
  /-- Nothing, where the caller cannot cancel. -/
  | cancelled (cancelled? : Option Bool)

def step (s : Session) : Step → Session × Answer
  | .pages => (s, .pages s.document.numberedPages)
  | .pageResources => (s, .outcome (s.document.inspectPageResources s.settings s.document.pages))
  | .pageThumbnails => (s, .outcome (s.document.inspectThumbnails s.settings s.document.pages))
  | .object id hint => (s, .outcome (s.document.inspectObject s.settings id hint))
  | .insert id object =>
    let objects := s.document.objects.insert id object
    ({ s with document := { s.document with objects } },
      .inserted (s.document.objects.has id) objects.size)
  | .remove id =>
    let objects := s.document.objects.erase id
    ({ s with document := { s.document with objects } },
      .removed (s.document.objects.has id) objects.size)
  | .trailer trailer =>
    ({ s with document := { s.document with trailer } }, .trailer trailer.length)
  | .header header => ({ s with document := { s.document with header } }, .header header)
  | .configure settings => ({ s with settings }, .settings settings)
  | .cancel =>
    let cancelled? := s.settings.cancelled?.map fun _ => true
    ({ s with settings := { s.settings with cancelled? } }, .cancelled cancelled?)

/-- The answers to the steps, in order. -/
def run : Session → List Step → List Answer
  | _, [] => []
  | s, step :: steps => (s.step step).2 :: run (s.step step).1 steps

end Session

end PdfConformance

import PdfConformance.Judgement

/-! # Judging with one trail

`deeper` hands each level a trail of its own. Here one trail serves a whole walk and is changed in
place: `Examiner.descend` makes it longer before a value is judged, and shorter again afterwards,
whatever has come of that. `Examiner.perform` carries out one routine of the judgement, from any
trail. -/

namespace PdfConformance

/-- One level back from what was entered by way of the stored value. -/
def Trail.pop (trail : Trail) (stored : Object) : Trail :=
  ⟨trail.within.drop stored.reference?.toList.length, trail.depth - 1⟩

/-- Where a walk stands: what it is within, and how many look-ups are left before the caller
cancels, if the caller ever does. -/
structure Position where
  trail : Trail
  patience? : Option Nat
  deriving DecidableEq, Repr

/-- A stretch of a walk. There is a position after it even where it ends at a fault. -/
abbrev Course := ExceptT Fault (StateM Position)

namespace Course

variable {α : Type}

/-- What comes of a stretch that begins at the position, and the position after it. -/
def goFrom (course : Course α) (position : Position) : Except Fault α × Position :=
  StateT.run (ExceptT.run course) position

end Course

/-- Puts the questions of an inquiry. Every look-up tries the caller's patience. -/
def Inquiry.conduct {α : Type} (find : ObjectId → Option Object) : Inquiry α → Course α
  | done a => return a
  | fail fault => throw fault
  | pause next => do
    if (← get).patience? = some 0 then throw .cancelled else next.conduct find
  | ask id next => do
    modify fun position => { position with patience? := position.patience?.map (· - 1) }
    (next (find id)).conduct find

/-- How the value of an entry is judged one level deeper in the course of a walk. -/
abbrev Entrance := Site → Entry → Schema → Course Unit

/-- What is the same throughout a walk. -/
structure Examiner where
  find : ObjectId → Option Object
  profile : Profile
  maxDepth : Nat

/-- The routines that a walk is handed on to. -/
inductive Routine where
  /-- What is stored at the site is to be an external object. -/
  | member (site : Site) (hint : Hint) (required : Bool) (stored : Object)
  | external (hint : Hint) (header : Dict)
  | image (use : ImageUse) (header : Dict)
  /-- The mask of an image that has this use. -/
  | mask (owner : ImageUse) (container : String) (entry : Entry)
  /-- The alternates of an image that has this use. -/
  | alternates (owner : ImageUse) (container : String) (entry : Entry)
  | alternateImage (entries : Dict)
  | form (header : Dict)
  | resources (entries : Dict)
  | prepress (entries : Dict)
  | pieceInfo (entry : Entry)

namespace Examiner

variable (e : Examiner)

def ask {α : Type} (x : Inquiry α) : Course α := x.conduct e.find

/-- Goes one level deeper by way of the stored value, and comes back. -/
def descend (site : Site) (stored : Object) (course : Course Unit) : Course Unit := do
  let trail := (← get).trail
  if trail.revisits stored || e.maxDepth ≤ trail.depth then
    throw (trail.stop site stored)
  else
    modify fun position => { position with trail := position.trail.push stored }
    try course
    finally modify fun position => { position with trail := position.trail.pop stored }

def clause (enter : Entrance) (container : String) (header : Dict) : Clause → Course Unit
  | .enter rule schema => do
    match ← e.ask (rule.check e.profile container header) with
    | some entry =>
      if entry.value.kind = schema.kind then enter ⟨container, rule.key⟩ entry schema else return
    | none => return
  | .enterWith rule companion label schema => do
    let entry? ← e.ask (rule.check e.profile container header)
    let companion? ← e.ask (companion.check e.profile container header)
    match entry?, companion? with
    | some entry, some _ => enter ⟨label, rule.key⟩ entry schema
    | some _, none => throw (.missingCompanion ⟨container, companion.key⟩ rule.key)
    | none, _ => return
  -- the other clauses enter nothing
  | clause => e.ask (clause.check e.profile (fun _ _ _ => return) container header)

def sheet (enter : Entrance) (sheet : Sheet) (header : Dict) : Course Unit :=
  sheet.clauses.forM (e.clause enter sheet.container header)

def image (enter : Entrance) (use : ImageUse) (header : Dict) : Course Unit := do
  e.ask ((Grammar.imageHead use).check e.profile header)
  let mask? ← e.ask (Grammar.imageMask.check e.profile use.container header)
  e.sheet enter (Grammar.image use (mask?.any (·.value.isTrue))) header

def form (enter : Entrance) (header : Dict) : Course Unit := e.sheet enter Grammar.form header

def external (enter : Entrance) (hint : Hint) (header : Dict) : Course Unit := do
  match ← e.ask (designate e.profile hint header) with
  | .form => e.form enter header
  | .image => e.image enter .primary header
  | .postScript => throw (.unsupported Grammar.external "PostScript XObject")
  | .unknown subtype => throw (.unknownSubtype Grammar.external subtype)
  | .untagged => throw (.missingEntry ⟨Grammar.external, Grammar.externalSubtype.key⟩)

/-- What is stored at the site is to be an external object. What is absent is passed over. -/
def member (enter : Entrance) (site : Site) (hint : Hint) (required : Bool) (stored : Object) :
    Course Unit := do
  match ← e.ask (valueIfAny site required stored) with
  | none => return
  | some value@(.stream _) => enter site ⟨stored, value⟩ (.external hint)
  | some value => e.ask (unexpected site .stream value)

def alternate (enter : Entrance) (container : String) (item : Object) : Course Unit := do
  let site : Site := ⟨container, Grammar.alternates.key⟩
  match ← e.ask (valueIfAny site false item) with
  | none => return
  | some value@(.stream _) => enter site ⟨item, value⟩ (.image .alternate)
  | some value@(.dictionary _) => enter site ⟨item, value⟩ .alternateImage
  | some value => e.ask (unexpected site Grammar.alternateShape value)

def prepress (enter : Entrance) : Dict → Course Unit
  | [(version, stored)] => do
    let site : Site := ⟨Grammar.prepressVersions, Text.Utf8.decodeLossy version⟩
    match Grammar.prepressTable? site.key with
    | none => throw (.malformed site .prepressVersion)
    | some table =>
      match ← e.ask (valueOf site stored) with
      | value@(.dictionary _) => enter site ⟨stored, value⟩ (.table table)
      | value => e.ask (unexpected site .dictionary value)
  | _ => throw (.malformed ⟨Grammar.prepressVersions, Grammar.prepressKey⟩ .prepressEntryCount)

/-- What a value is judged by once it has been entered. -/
def judge (enter : Entrance) : Schema → Object → Course Unit
  | .external hint, .stream header => e.external enter hint header
  | .image use, .stream header => e.image enter use header
  | .alternates, .array items => items.forM (e.alternate enter ImageUse.primary.container)
  | .alternateImage, .dictionary entries => e.sheet enter Grammar.alternateImage entries
  | .resources, .dictionary entries => e.sheet enter Grammar.resources entries
  | .externals, .dictionary entries => entries.forM fun member =>
    e.member enter ⟨"xObjectResourceDict", Text.Utf8.decodeLossy member.1⟩ .any false member.2
  | .pieceInfo, .dictionary entries => entries.forM fun piece => e.ask (judgePiece e.profile piece)
  | .prepress, .dictionary entries => e.prepress enter entries
  | .table table, .dictionary entries => e.ask (table.check e.profile entries)
  | .barred site reason, .stream _ => throw (.constraint site reason)
  | _, _ => return

/-- Enters the value of an entry. Levels do not run out before the limit on the depth is reached. -/
def enter : (levels : Nat) → Entrance
  | 0, site, entry, _ => do throw ((← get).trail.stop site entry.stored)
  | levels + 1, site, entry, schema =>
    e.descend site entry.stored (e.judge (enter levels) schema entry.value)

def mask (enter : Entrance) (owner : ImageUse) (container : String) (entry : Entry) :
    Course Unit :=
  let site : Site := ⟨container, Grammar.mask.key⟩
  match entry.value with
  | .stream _ =>
    enter site entry
      (if owner = .explicitMask then .barred site .maskedMask else .image .explicitMask)
  | .array _ => return
  | value => e.ask (unexpected site Grammar.mask.shape value)

def alternates (enter : Entrance) (owner : ImageUse) (container : String) (entry : Entry) :
    Course Unit :=
  let site : Site := ⟨container, Grammar.alternates.key⟩
  match entry.value with
  | .array items =>
    if owner = .primary then
      e.descend site entry.stored (items.forM (e.alternate enter container))
    else e.ask (.require items.isEmpty (.constraint site .nestedAlternates))
  | _ => return

def pieceInfo (enter : Entrance) (entry : Entry) : Course Unit :=
  match entry.value with
  | .dictionary _ => enter ⟨Grammar.pieceInfo, "PieceInfo"⟩ entry .pieceInfo
  | _ => return

def perform (routine : Routine) : Course Unit :=
  let enter := e.enter e.maxDepth
  match routine with
  | .member site hint required stored => e.member enter site hint required stored
  | .external hint header => e.external enter hint header
  | .image use header => e.image enter use header
  | .mask owner container entry => e.mask enter owner container entry
  | .alternates owner container entry => e.alternates enter owner container entry
  | .alternateImage entries => e.sheet enter Grammar.alternateImage entries
  | .form header => e.form enter header
  | .resources entries => e.sheet enter Grammar.resources entries
  | .prepress entries => e.prepress enter entries
  | .pieceInfo entry => pieceInfo enter entry

end Examiner

end PdfConformance

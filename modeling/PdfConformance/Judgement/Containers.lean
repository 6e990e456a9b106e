import PdfConformance.Designation
import PdfConformance.Grammar.Form
import PdfConformance.Grammar.Image
import PdfConformance.Judgement.Clauses

/-! # Judging containers

`judge` judges a value by a schema, given a way to enter the values held in it. Images, forms and
resources are judged by their sheets; this module adds what no sheet says: how an external object is
told for an image or a form, and how the members of a collection are judged. -/

namespace PdfConformance

def judgeImage (p : Profile) (enter : Enter) (use : ImageUse) (header : Dict) : Inquiry Unit := do
  (Grammar.imageHead use).check p header
  let mask? ← Grammar.imageMask.check p use.container header
  (Grammar.image use (mask?.any (·.value.isTrue))).check p enter header

def judgeForm (p : Profile) (enter : Enter) (header : Dict) : Inquiry Unit :=
  Grammar.form.check p enter header

/-- What an external object with this designation is taken for. Only a usable one can contradict
the caller. -/
def settle (p : Profile) (hint : Hint) (header : Dict) (declared : Designation) :
    Inquiry Designation :=
  if !declared.isUsable && p.mode = .relaxed then return .infer header hint
  else do
    .require (!declared.contradicts hint)
      (.constraint ⟨Grammar.external, Grammar.externalSubtype.key⟩ .contradictedHint)
    return declared

/-- What an external object is judged as. -/
def designate (p : Profile) (hint : Hint) (header : Dict) : Inquiry Designation := do
  let _ ← Grammar.externalType.check p Grammar.external header
  let subtype? ← Grammar.externalSubtype.check p Grammar.external header
  settle p hint header (.ofSubtype (subtype?.bind (·.value.nameText?)))

def judgeExternal (p : Profile) (enter : Enter) (hint : Hint) (header : Dict) : Inquiry Unit := do
  match ← designate p hint header with
  | .form => judgeForm p enter header
  | .image => judgeImage p enter .primary header
  | .postScript => .fail (.unsupported Grammar.external "PostScript XObject")
  | .unknown subtype => .fail (.unknownSubtype Grammar.external subtype)
  | .untagged => .fail (.missingEntry ⟨Grammar.external, Grammar.externalSubtype.key⟩)

/-- What a site holds is not of the kind expected there. -/
def unexpected (site : Site) (expected : Shape) (value : Object) : Inquiry Unit :=
  .fail (.wrongKind site expected value.kind)

/-- An image that may replace another. An absent one is passed over. -/
def judgeAlternate (enter : Enter) (item : Object) : Inquiry Unit := do
  let site : Site := ⟨ImageUse.primary.container, Grammar.alternates.key⟩
  match ← valueIfAny site false item with
  | none => return
  | some value@(.stream _) => enter site ⟨item, value⟩ (.image .alternate)
  | some value@(.dictionary _) => enter site ⟨item, value⟩ .alternateImage
  | some value =>
    unexpected site Grammar.alternateShape value

/-- An external object that resources name; an absent one is passed over. -/
def judgeMember (enter : Enter) (member : Bytes × Object) : Inquiry Unit := do
  let site : Site := ⟨"xObjectResourceDict", Text.Utf8.decodeLossy member.1⟩
  match ← valueIfAny site false member.2 with
  | none => return
  | some value@(.stream _) => enter site ⟨member.2, value⟩ (.external .any)
  | some value => unexpected site .stream value

/-- The data of one application. -/
def judgePiece (p : Profile) (piece : Bytes × Object) : Inquiry Unit := do
  let site : Site := ⟨Grammar.pieceInfo, Text.Utf8.decodeLossy piece.1⟩
  match ← valueOf site piece.2 with
  | .dictionary data => Grammar.pieceData.check p data
  | value => unexpected site .dictionary value

/-- Exactly one entry, whose key is the version of the dictionary it holds. -/
def judgePrepress (enter : Enter) : Dict → Inquiry Unit
  | [(version, stored)] => do
    let site : Site := ⟨Grammar.prepressVersions, Text.Utf8.decodeLossy version⟩
    match Grammar.prepressTable? site.key with
    | none => .fail (.malformed site .prepressVersion)
    | some table =>
      match ← valueOf site stored with
      | value@(.dictionary _) => enter site ⟨stored, value⟩ (.table table)
      | value => unexpected site .dictionary value
  | _ => .fail (.malformed ⟨Grammar.prepressVersions, Grammar.prepressKey⟩ .prepressEntryCount)

/-- A value of another kind than the schema's is none of its concern. -/
def judge (p : Profile) (enter : Enter) : Schema → Object → Inquiry Unit
  | .external hint, .stream header => judgeExternal p enter hint header
  | .image use, .stream header => judgeImage p enter use header
  | .alternates, .array items => items.forM (judgeAlternate enter)
  | .alternateImage, .dictionary entries => Grammar.alternateImage.check p enter entries
  | .resources, .dictionary entries => Grammar.resources.check p enter entries
  | .externals, .dictionary entries => entries.forM (judgeMember enter)
  | .pieceInfo, .dictionary entries => entries.forM (judgePiece p)
  | .prepress, .dictionary entries => judgePrepress enter entries
  | .table table, .dictionary entries => table.check p entries
  | .barred site reason, .stream _ => .fail (.constraint site reason)
  | _, _ => return

end PdfConformance

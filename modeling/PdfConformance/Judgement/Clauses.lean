import PdfConformance.Grammar
import PdfConformance.Rule.Check

/-! # Judging by clauses

`Clause.check` holds a container to one clause, given a way to judge the values of entries one level
deeper; `Sheet.check` holds it to one clause after the other. -/

namespace PdfConformance

/-- How the value of an entry is judged one level deeper, and the site faults of that are put to. -/
abbrev Enter := Site → Entry → Schema → Inquiry Unit

namespace Object

/-- The entries of a container, where it has any. -/
def header? : Object → Option Dict
  | .dictionary entries => some entries
  | .stream header => some header
  | _ => none

def isTrue : Object → Bool
  | .boolean value => value
  | _ => false

def isEmptyArray : Object → Bool
  | .array items => items.isEmpty
  | _ => false

end Object

def Clause.check (p : Profile) (enter : Enter) (container : String) (header : Dict) :
    Clause → Inquiry Unit
  | .obey rule => do
    let _ ← rule.check p container header
    return
  | .inspect rule table => do
    match (← rule.check p container header).bind (·.value.header?) with
    | some inner => table.check p inner
    | none => return
  | .enter rule schema => do
    match ← rule.check p container header with
    | some entry =>
      if entry.value.kind = schema.kind then enter ⟨container, rule.key⟩ entry schema else return
    | none => return
  | .enterWith rule companion label schema => do
    let entry? ← rule.check p container header
    let companion? ← companion.check p container header
    match entry?, companion? with
    | some entry, some _ => enter ⟨label, rule.key⟩ entry schema
    | some _, none => .fail (.missingCompanion ⟨container, companion.key⟩ rule.key)
    | none, _ => return
  | .empty rule reason => do
    match ← rule.check p container header with
    | some entry => .require entry.value.isEmptyArray (.constraint ⟨container, rule.key⟩ reason)
    | none => return
  | .absent rule reason => do
    match ← rule.check p container header with
    | some _ => .fail (.constraint ⟨container, rule.key⟩ reason)
    | none => return
  | .exclude first second => do
    let first? ← first.check p container header
    let second? ← second.check p container header
    .require (first?.isNone || second?.isNone) (.conflict container first.key second.key)
  | .never key reason => .fail (.constraint ⟨container, key⟩ reason)

def Sheet.check (p : Profile) (enter : Enter) (sheet : Sheet) (header : Dict) : Inquiry Unit :=
  sheet.clauses.forM (Clause.check p enter sheet.container header)

end PdfConformance

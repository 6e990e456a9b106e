import PdfConformance.Grammar.Form
import PdfConformance.Grammar.Image

/-! # What the rules of the grammar have in common

The rules a sheet may come to check are those of its clauses and of the tables the clauses name.
Whether an entry is demanded depends on the version only through `Rule.isTimely`, and on the filters
of its container only by the demands that `Demand.readsFilters` tells: images alone make them. No
sheet is for what is not known for an image or a form: of that nothing is demanded. Only the pairs of
entries that `Clause.isPaired` names are weighed against each other. -/

namespace PdfConformance

/-- What is demanded at all is demanded from the first version on, and in the oldest version alone
only the name of an object. -/
def Rule.isTimely (rule : Rule) : Bool :=
  match rule.demand with
  | .never => true
  | .inOldestVersion => rule.key = Grammar.resourceName.key
  | _ => rule.introduced = .v1_0

/-- Whether the demand is made turns on the filters of the container. -/
def Demand.readsFilters : Demand → Bool
  | unlessJpx | unlessColoured => true
  | _ => false

def Schema.rules : Schema → List Rule
  | .table ruleTable => ruleTable.rules
  | _ => []

/-- The rules of the table a clause names. -/
def Clause.tableRules : Clause → List Rule
  | .inspect _ table => table.rules
  | .enter _ schema | .enterWith _ _ _ schema => schema.rules
  | _ => []

def Clause.allRules (clause : Clause) : List Rule := clause.rules ++ clause.tableRules

def Sheet.allRules (sheet : Sheet) : List Rule := sheet.clauses.flatMap Clause.allRules

/-- The rules a sheet holds the entries of its own container to. -/
def Sheet.rules (sheet : Sheet) : List Rule := sheet.clauses.flatMap Clause.rules

/-- The rules of the tables the clauses of a sheet name. -/
def Sheet.tableRules (sheet : Sheet) : List Rule := sheet.clauses.flatMap Clause.tableRules

/-- The name of the container that a schema has rules for. -/
def Schema.containers : Schema → List String
  | .table ruleTable => [ruleTable.container]
  | _ => []

/-- The names of the containers that the tables a clause names are for. -/
def Clause.containers : Clause → List String
  | .inspect _ table => [table.container]
  | .enter _ schema | .enterWith _ _ _ schema => schema.containers
  | _ => []

/-- The names of the containers that a sheet and the tables it names are for. -/
def Sheet.containers (sheet : Sheet) : List String :=
  sheet.container :: sheet.clauses.flatMap Clause.containers

/-- A clause that weighs two entries against each other is about the data of applications, which need
a date, or about the two keys of an object in the structure of its document, of which it has one. -/
def Clause.isPaired : Clause → Bool
  | enterWith rule companion _ _ => rule.key = "PieceInfo" && companion.key = "LastModified"
  | exclude first second => first.key = "StructParent" && second.key = "StructParents"
  | _ => true

theorem Clause.mem_allRules_of_mem_rules {clause : Clause} {rule : Rule} (h : rule ∈ clause.rules) :
    rule ∈ clause.allRules :=
  List.mem_append_left _ h

theorem Clause.mem_allRules_of_mem_tableRules {clause : Clause} {rule : Rule}
    (h : rule ∈ clause.tableRules) : rule ∈ clause.allRules :=
  List.mem_append_right _ h

namespace Grammar

theorem isTimely_form : ∀ rule ∈ form.allRules, rule.isTimely = true := by decide

theorem isTimely_resources : ∀ rule ∈ resources.allRules, rule.isTimely = true := by decide

theorem isTimely_alternateImage : ∀ rule ∈ alternateImage.allRules, rule.isTimely = true := by
  decide

theorem isTimely_image (use : ImageUse) (stencil : Bool) :
    ∀ rule ∈ (image use stencil).allRules, rule.isTimely = true := by
  cases use <;> cases stencil <;> decide

theorem isTimely_imageHead (use : ImageUse) :
    ∀ rule ∈ (imageHead use).rules, rule.isTimely = true := by
  cases use <;> decide

theorem isTimely_pieceData : ∀ rule ∈ pieceData.rules, rule.isTimely = true := by decide

/-- There are two versions of prepress dictionaries. -/
theorem prepressTable?_eq_some {key : String} {table : RuleTable}
    (h : prepressTable? key = some table) : table = prepress13 ∨ table = prepress20 := by
  unfold prepressTable? at h
  split at h
  · exact .inl (Option.some.inj h).symm
  · split at h
    · exact .inr (Option.some.inj h).symm
    · cases h

theorem isTimely_prepressTable {key : String} {table : RuleTable}
    (h : prepressTable? key = some table) : ∀ rule ∈ table.rules, rule.isTimely = true := by
  rcases prepressTable?_eq_some h with rfl | rfl
  · decide
  · decide

theorem external_not_mem_form : external ∉ form.containers := by decide

theorem external_not_mem_resources : external ∉ resources.containers := by decide

theorem external_not_mem_alternateImage : external ∉ alternateImage.containers := by decide

theorem external_not_mem_image (use : ImageUse) (stencil : Bool) :
    external ∉ (image use stencil).containers := by
  cases use <;> cases stencil <;> decide

theorem container_ne_external (use : ImageUse) : use.container ≠ external := by
  cases use <;> decide

theorem container_prepressTable_ne {key : String} {table : RuleTable}
    (h : prepressTable? key = some table) : table.container ≠ external := by
  rcases prepressTable?_eq_some h with rfl | rfl
  · decide
  · decide

theorem isPaired_form : ∀ clause ∈ form.clauses, clause.isPaired = true := by decide

theorem isPaired_resources : ∀ clause ∈ resources.clauses, clause.isPaired = true := by decide

theorem isPaired_alternateImage : ∀ clause ∈ alternateImage.clauses, clause.isPaired = true := by
  decide

theorem isPaired_image (use : ImageUse) (stencil : Bool) :
    ∀ clause ∈ (image use stencil).clauses, clause.isPaired = true := by
  cases use <;> cases stencil <;> decide

theorem readsFilters_tables_form :
    ∀ rule ∈ form.tableRules, rule.demand.readsFilters = false := by decide

theorem readsFilters_tables_image (use : ImageUse) (stencil : Bool) :
    ∀ rule ∈ (image use stencil).tableRules, rule.demand.readsFilters = false := by
  cases use <;> cases stencil <;> decide

theorem readsFilters_resources :
    ∀ rule ∈ resources.rules, rule.demand.readsFilters = false := by decide

theorem readsFilters_tables_resources :
    ∀ rule ∈ resources.tableRules, rule.demand.readsFilters = false := by decide

theorem readsFilters_alternateImage :
    ∀ rule ∈ alternateImage.rules, rule.demand.readsFilters = false := by decide

theorem readsFilters_tables_alternateImage :
    ∀ rule ∈ alternateImage.tableRules, rule.demand.readsFilters = false := by decide

theorem readsFilters_pieceData :
    ∀ rule ∈ pieceData.rules, rule.demand.readsFilters = false := by decide

theorem readsFilters_prepressTable {key : String} {table : RuleTable}
    (h : prepressTable? key = some table) :
    ∀ rule ∈ table.rules, rule.demand.readsFilters = false := by
  rcases prepressTable?_eq_some h with rfl | rfl
  · decide
  · decide

end Grammar

end PdfConformance

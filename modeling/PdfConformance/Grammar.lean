import PdfConformance.Rule

/-! # What containers are judged by

A container is judged by clauses, one after the other. Most hold one entry to its rule; some then
judge the value of the entry, either in place or one level deeper by a `Schema`. -/

namespace PdfConformance

/-- What the caller takes an external object to be. -/
inductive Hint where
  | any
  | form
  | image
  deriving DecidableEq, Repr

/-- Where an image occurs; all but a primary image are part of another image. -/
inductive ImageUse where
  | primary
  | alternate
  | softMask
  | explicitMask
  deriving DecidableEq, Repr

/-- What a value is judged by, one level deeper than the entry that holds it. -/
inductive Schema where
  | external (hint : Hint)
  | image (use : ImageUse)
  /-- The images an image may be replaced by. -/
  | alternates
  | alternateImage
  | resources
  /-- The external objects a resource dictionary names. -/
  | externals
  /-- What applications keep with a form. -/
  | pieceInfo
  /-- A prepress dictionary under the key of its version. -/
  | prepress
  | table (table : RuleTable)
  /-- Nothing conforms. -/
  | barred (site : Site) (reason : Reason)
  deriving DecidableEq, Repr

/-- The kind of the values a schema judges. -/
def Schema.kind : Schema → Kind
  | external _ | image _ | barred _ _ => .stream
  | alternates => .array
  | alternateImage | resources | externals | pieceInfo | prepress | table _ => .dictionary

inductive Clause where
  /-- The entry obeys its rule. -/
  | obey (rule : Rule)
  /-- The entry obeys its rule, and the table is checked on its value in place. -/
  | inspect (rule : Rule) (table : RuleTable)
  /-- The entry obeys its rule, and a value of the schema's kind is judged one level deeper. -/
  | enter (rule : Rule) (schema : Schema)
  /-- Both entries obey their rules; the first needs the second, and is then judged one level
  deeper, as an entry of `container`. -/
  | enterWith (rule companion : Rule) (container : String) (schema : Schema)
  /-- The entry obeys its rule and has no elements. -/
  | empty (rule : Rule) (reason : Reason)
  /-- The entry obeys its rule and is absent. -/
  | absent (rule : Rule) (reason : Reason)
  /-- Both entries obey their rules, and one of them is absent. -/
  | exclude (first second : Rule)
  /-- No container of this sort may be here, because of the entry under `key`. -/
  | never (key : String) (reason : Reason)
  deriving DecidableEq, Repr

/-- The rules a clause holds entries to, in the order in which it does. -/
def Clause.rules : Clause → List Rule
  | obey rule | inspect rule _ | enter rule _ | empty rule _ | absent rule _ => [rule]
  | enterWith first second _ _ | exclude first second => [first, second]
  | never _ _ => []

/-- The clauses for a container, and the container's name. -/
structure Sheet where
  container : String
  clauses : List Clause
  deriving DecidableEq, Repr

end PdfConformance

/-! # Modes

How closely a document is held to the format. -/

namespace PdfConformance

/-- `relaxed` tolerates the irregularities of versions, tags and dates that producers are known for;
kinds and limits are held to in both modes. -/
inductive Mode where
  | strict
  | relaxed
  deriving DecidableEq, Repr

end PdfConformance

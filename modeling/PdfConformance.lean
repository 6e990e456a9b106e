import PdfConformance.Proofs.AbsentEntries
import PdfConformance.Proofs.Cancellation
import PdfConformance.Proofs.Circles
import PdfConformance.Proofs.DepthLimit
import PdfConformance.Proofs.Document.Ancestry
import PdfConformance.Proofs.ExternalObject
import PdfConformance.Proofs.FormResources
import PdfConformance.Proofs.Grammar.Form
import PdfConformance.Proofs.Grammar.Image
import PdfConformance.Proofs.Heredity
import PdfConformance.Proofs.Indirection
import PdfConformance.Proofs.InferredTag
import PdfConformance.Proofs.Judgement.Descent
import PdfConformance.Proofs.Judgement.Variation
import PdfConformance.Proofs.LaterVersions
import PdfConformance.Proofs.Leniency
import PdfConformance.Proofs.Locality
import PdfConformance.Proofs.MaskCircle
import PdfConformance.Proofs.NestedStreams
import PdfConformance.Proofs.Nesting
import PdfConformance.Proofs.Object.Renumbering
import PdfConformance.Proofs.Object.Reordering
import PdfConformance.Proofs.PageLookup
import PdfConformance.Proofs.PageResources
import PdfConformance.Proofs.ReferenceChain
import PdfConformance.Proofs.Renumbering
import PdfConformance.Proofs.Reordering
import PdfConformance.Proofs.Siblings
import PdfConformance.Proofs.StoredFilter
import PdfConformance.Proofs.Text.WellFormed
import PdfConformance.Proofs.Truth
import PdfConformance.Proofs.VersionGate
import PdfConformance.Session
import PdfConformance.Proofs.DateStrings
import PdfConformance.Proofs.Calendar
import PdfConformance.Proofs.Instants
import PdfConformance.Proofs.OneTrail
import PdfConformance.Proofs.Spelling

import PdfConformance.Proofs.Question
import PdfConformance.Proofs.Text.Utf8

/-! # Faults tell the truth

What a fault says of the document can be checked there: `fault_tells` lists it for the faults that
name an object, a kind or a key. The containers it speaks of occur in the object that was judged, or
in what that refers to. -/

namespace PdfConformance

open Inquiry

variable {find : ObjectId → Option Object} {object : Object}

/-- What occurs in an object refers to nothing but what the object reaches. -/
theorem Occurs.reaches {value : Object} (h : Occurs find object value) :
    ∀ id ∈ value.ids, Reaches find object id := by
  induction h with
  | self => exact fun id hid => .occurs hid
  | part _ hpart ih => exact fun id hid => ih id (Object.mem_ids_of_mem_parts hpart hid)
  | @stored via _ _ hfind ih =>
    intro id hid
    have hvia : Reaches find object via := ih via (by simp [Object.ids])
    exact .through hvia hfind hid

/-- Some dictionary, or header of a stream, that occurs in the object is as told. -/
def SomeHeader (find : ObjectId → Option Object) (object : Object) (told : Dict → Prop) : Prop :=
  ∃ container header, Occurs find object container ∧ container.header? = some header ∧ told header

/-- What a fault says of the object that was judged is so. -/
def Fault.IsTrueOf (find : ObjectId → Option Object) (object : Object) : Fault → Prop
  | dangling _ id => Reaches find object id ∧ (find id = none ∨ find id = some .null)
  | wrongKind _ _ found => found ≠ .reference
  | missingEntry site => SomeHeader find object (Lacks find · site.key)
  | conflict _ first second =>
    first = "StructParent" ∧ second = "StructParents" ∧ SomeHeader find object fun header =>
      Dict.has header (Text.Utf8.encode "StructParent") = true ∧
        Dict.has header (Text.Utf8.encode "StructParents") = true
  | missingCompanion site requiredBy =>
    site.key = "LastModified" ∧ requiredBy = "PieceInfo" ∧ SomeHeader find object fun header =>
      Dict.has header (Text.Utf8.encode "PieceInfo") = true ∧ Lacks find header "LastModified"
  | unsupported _ _ => SomeHeader find object fun header => ∃ stored,
      Dict.get? header (Text.Utf8.encode "Subtype") = some stored ∧
        Stands find stored (.name (Text.Utf8.encode "PS"))
  | _ => True

/-- The object and all that occurs in it is in view. -/
def truthTerms (find : ObjectId → Option Object) (object : Object) : Terms where
  find
  held := Occurs find object
  held_part := .part
  held_stored := .stored
  fault := Fault.IsTrueOf find object

theorem truthTerms_someHeader {told : Dict → Prop} {header : Dict}
    (h : (truthTerms find object).Header header) (htold : told header) :
    SomeHeader find object told := by
  rcases h with h | h
  · exact ⟨_, header, h, rfl, htold⟩
  · exact ⟨_, header, h, rfl, htold⟩

theorem truthTerms_admits (find : ObjectId → Option Object) (object : Object) (p : Profile) :
    (truthTerms find object).Admits p := by
  intro fault htells
  cases htells with
  | missingEntry container hheader _ _ hlacks => exact truthTerms_someHeader hheader hlacks
  | untagged hheader _ hlacks => exact truthTerms_someHeader hheader hlacks
  | wrongKind site shape hfound => exact hfound
  | conflict container hheader hfirst hsecond =>
    exact ⟨rfl, rfl, truthTerms_someHeader hheader ⟨hfirst, hsecond⟩⟩
  | missingCompanion container hheader hhas hlacks =>
    exact ⟨rfl, rfl, truthTerms_someHeader hheader ⟨hhas, hlacks⟩⟩
  | unsupported container construct hheader hget hstands hname =>
    rw [Object.eq_name_of_nameText? rfl hname] at hstands
    exact truthTerms_someHeader hheader ⟨_, hget, hstands⟩
  | dangling site hheld hnothing =>
    have hoccurs : Occurs find object (.reference _) := hheld
    exact ⟨hoccurs.reaches _ (by simp [Object.ids]), hnothing⟩
  | _ => trivial

/-- A walk that is refused to go deeper tells nothing that is checked here. -/
def truthInvariant (find : ObjectId → Option Object) (object : Object) :
    (truthTerms find object).Invariant where
  holds := fun _ _ _ => True
  stop := fun _ _ _ _ => trivial
  push := fun _ _ _ _ => trivial

theorem isTrueOf_of_outcome {question : Question} {doc : Document} {p : Profile} {maxDepth : Nat}
    {patience? : Option Nat} {fault : Fault}
    (h : question.outcome doc p maxDepth patience? object = .error fault) :
    fault.IsTrueOf doc.get? object := by
  have horderly : Orderly (truthTerms doc.get? object) (fun _ => True)
      (question.inquiry p maxDepth object) :=
    question.orderly (truthTerms_admits doc.get? object p) (truthInvariant doc.get? object) .self
      trivial
  rcases horderly.fault_of_verdict h with rfl | hfault
  · trivial
  · exact hfault

/-- A reference that is reported to lead nowhere is one that the judged object reaches, and nothing
is stored under it. No reference is reported for a value of the wrong kind: it is followed first.
Where an entry is missing, has an entry it excludes beside it, or lacks its companion, and where an
object is PostScript, some container in view is so. -/
theorem fault_tells (question : Question) (doc : Document) (p : Profile) (maxDepth : Nat)
    (patience? : Option Nat) (object : Object) :
    (∀ site id, question.outcome doc p maxDepth patience? object = .error (.dangling site id) →
      Reaches doc.get? object id ∧ (doc.get? id = none ∨ doc.get? id = some .null)) ∧
    (∀ site expected found, question.outcome doc p maxDepth patience? object =
      .error (.wrongKind site expected found) → found ≠ .reference) ∧
    (∀ site, question.outcome doc p maxDepth patience? object = .error (.missingEntry site) →
      SomeHeader doc.get? object (Lacks doc.get? · site.key)) ∧
    (∀ container first second, question.outcome doc p maxDepth patience? object =
      .error (.conflict container first second) →
      first = "StructParent" ∧ second = "StructParents" ∧ SomeHeader doc.get? object fun header =>
        Dict.has header (Text.Utf8.encode "StructParent") = true ∧
          Dict.has header (Text.Utf8.encode "StructParents") = true) ∧
    (∀ site requiredBy, question.outcome doc p maxDepth patience? object =
      .error (.missingCompanion site requiredBy) →
      site.key = "LastModified" ∧ requiredBy = "PieceInfo" ∧
        SomeHeader doc.get? object fun header =>
          Dict.has header (Text.Utf8.encode "PieceInfo") = true ∧
            Lacks doc.get? header "LastModified") ∧
    (∀ container construct, question.outcome doc p maxDepth patience? object =
      .error (.unsupported container construct) →
      SomeHeader doc.get? object fun header => ∃ stored,
        Dict.get? header (Text.Utf8.encode "Subtype") = some stored ∧
          Stands doc.get? stored (.name (Text.Utf8.encode "PS"))) := by
  refine ⟨?_, ?_, ?_, ?_, ?_, ?_⟩
  · intro site id h
    exact isTrueOf_of_outcome h
  · intro site expected found h
    exact isTrueOf_of_outcome h
  · intro site h
    exact isTrueOf_of_outcome h
  · intro container first second h
    exact isTrueOf_of_outcome h
  · intro site requiredBy h
    exact isTrueOf_of_outcome h
  · intro container construct h
    exact isTrueOf_of_outcome h

/-- Objects with one fault each: data of applications without a date, both keys in the structure of
the document, a width that is not stored, no width, PostScript, and a stream for a width. -/
def faulty : Document where
  header := "1.7"
  trailer := []
  objects := .ofList [
    (⟨1, 0⟩, .stream (form ++ [(Text.Utf8.encode "PieceInfo", .dictionary [])])),
    (⟨2, 0⟩, .stream (form ++ [(Text.Utf8.encode "StructParent", .integer 0),
      (Text.Utf8.encode "StructParents", .integer 0)])),
    (⟨3, 0⟩, .stream [tag "Image", (Text.Utf8.encode "Width", .reference ⟨9, 0⟩)]),
    (⟨4, 0⟩, .stream [tag "Image"]),
    (⟨5, 0⟩, .stream [tag "PS"]),
    (⟨6, 0⟩, .stream [tag "Image", (Text.Utf8.encode "Width", .reference ⟨5, 0⟩)])]
where
  tag (subtype : String) : Bytes × Object :=
    (Text.Utf8.encode "Subtype", .name (Text.Utf8.encode subtype))
  form : Dict := [tag "Form",
    (Text.Utf8.encode "BBox", .array [.integer 0, .integer 0, .integer 1, .integer 1])]

/-- The verdict on one of the objects. -/
def faulty.verdict (number : Nat) : Except Fault Unit :=
  (Question.external .any).outcome faulty ⟨.v1_7, .strict⟩ 64 none (.reference ⟨number, 0⟩)

theorem fault_tells_faulty :
    faulty.verdict 3 = .error (.dangling ⟨"imageStream", "Width"⟩ ⟨9, 0⟩) ∧
      Reaches faulty.get? (.reference ⟨3, 0⟩) ⟨9, 0⟩ ∧
    faulty.verdict 6 = .error (.wrongKind ⟨"imageStream", "Width"⟩ .integer .stream) ∧
      Kind.stream ≠ .reference ∧
    faulty.verdict 4 = .error (.missingEntry ⟨"imageStream", "Width"⟩) ∧
      SomeHeader faulty.get? (.reference ⟨4, 0⟩) (Lacks faulty.get? · "Width") ∧
    faulty.verdict 2 = .error (.conflict "formStream" "StructParent" "StructParents") ∧
      (SomeHeader faulty.get? (.reference ⟨2, 0⟩) fun header =>
        Dict.has header (Text.Utf8.encode "StructParent") = true ∧
          Dict.has header (Text.Utf8.encode "StructParents") = true) ∧
    faulty.verdict 1 = .error (.missingCompanion ⟨"formStream", "LastModified"⟩ "PieceInfo") ∧
      (SomeHeader faulty.get? (.reference ⟨1, 0⟩) fun header =>
        Dict.has header (Text.Utf8.encode "PieceInfo") = true ∧
          Lacks faulty.get? header "LastModified") ∧
    faulty.verdict 5 = .error (.unsupported "xObjectStream" "PostScript XObject") ∧
      SomeHeader faulty.get? (.reference ⟨5, 0⟩) fun header => ∃ stored,
        Dict.get? header (Text.Utf8.encode "Subtype") = some stored ∧
          Stands faulty.get? stored (.name (Text.Utf8.encode "PS")) := by
  have htells (number : Nat) := fault_tells (.external .any) faulty ⟨.v1_7, .strict⟩ 64 none
    (.reference ⟨number, 0⟩)
  have hdangling : faulty.verdict 3 = .error (.dangling ⟨"imageStream", "Width"⟩ ⟨9, 0⟩) := by rfl
  have hkind : faulty.verdict 6 =
      .error (.wrongKind ⟨"imageStream", "Width"⟩ .integer .stream) := by rfl
  have hmissing : faulty.verdict 4 = .error (.missingEntry ⟨"imageStream", "Width"⟩) := by rfl
  have hconflict : faulty.verdict 2 =
      .error (.conflict "formStream" "StructParent" "StructParents") := by rfl
  have hcompanion : faulty.verdict 1 =
      .error (.missingCompanion ⟨"formStream", "LastModified"⟩ "PieceInfo") := by rfl
  have hunsupported : faulty.verdict 5 =
      .error (.unsupported "xObjectStream" "PostScript XObject") := by rfl
  obtain ⟨hreaches, -⟩ := htells 3
  obtain ⟨-, hreference, -⟩ := htells 6
  obtain ⟨-, -, hlacks, -⟩ := htells 4
  obtain ⟨-, -, -, hboth, -⟩ := htells 2
  obtain ⟨-, -, -, -, hcompanions, -⟩ := htells 1
  obtain ⟨-, -, -, -, -, hpostScript⟩ := htells 5
  exact ⟨hdangling, (hreaches _ _ hdangling).1, hkind, hreference _ _ _ hkind, hmissing,
    hlacks _ hmissing, hconflict, (hboth _ _ _ hconflict).2.2, hcompanion,
    (hcompanions _ _ hcompanion).2.2, hunsupported, hpostScript _ _ hunsupported⟩

end PdfConformance

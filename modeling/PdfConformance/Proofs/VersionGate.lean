import PdfConformance.Proofs.Cancellation

/-! # What a version refuses

`outcome_gated`: only in strict mode is an entry refused for being newer than the document, and then
a walk that ends well has refused all such entries: every container it comes to has been held to
every rule of its sheet. -/

namespace PdfConformance

open Inquiry

variable {find : ObjectId → Option Object} {p : Profile} {object : Object}

theorem Profile.refuses_iff {since : Version} :
    p.refuses since = true ↔ p.mode = .strict ∧ p.version.rank < since.rank := by
  have hcovers : p.covers since = decide (since.rank ≤ p.version.rank) := rfl
  simp [refuses, hcovers]

/-- What is told by the faults that strict mode alone knows. -/
def Fault.Gated (find : ObjectId → Option Object) (object : Object) (p : Profile) : Fault → Prop
  | tooNew site since declared =>
    p.mode = .strict ∧ declared = p.version ∧ p.version.rank < since.rank ∧
      ∃ container header, Occurs find object container ∧ container.header? = some header ∧
        Dict.has header (Text.Utf8.encode site.key) = true
  | unknownSubtype _ _ => p.mode = .strict
  | missingEntry site => site = ⟨"xObjectStream", "Subtype"⟩ → p.mode = .strict
  | _ => True

/-- What occurs in the object is in view. -/
def gateTerms (find : ObjectId → Option Object) (object : Object) (p : Profile) : Terms where
  find
  held := Occurs find object
  held_part := .part
  held_stored := .stored
  fault := Fault.Gated find object p

theorem gateTerms_header {header : Dict} (h : (gateTerms find object p).Header header) :
    ∃ container, Occurs find object container ∧ container.header? = some header := by
  rcases h with h | h
  · exact ⟨_, h, rfl⟩
  · exact ⟨_, h, rfl⟩

theorem gateTerms_admits (find : ObjectId → Option Object) (object : Object) (p : Profile) :
    (gateTerms find object p).Admits p := by
  intro fault htells
  cases htells with
  | missingEntry container hheader hplace hrequired hlacks =>
    intro hsite
    have hcontainer : container = Grammar.external := congrArg Site.container hsite
    simp [Rule.isRequired, hplace hcontainer, Demand.holds] at hrequired
  | untagged _ hmode _ => exact fun _ => hmode
  | tooNew container hheader hhas hrefuses =>
    obtain ⟨hmode, hlt⟩ := Profile.refuses_iff.mp hrefuses
    obtain ⟨holder, hoccurs, hholder⟩ := gateTerms_header hheader
    exact ⟨hmode, rfl, hlt, holder, _, hoccurs, hholder, hhas⟩
  | unknownSubtype container subtype hmode => exact hmode
  | _ => trivial

def gateInvariant (find : ObjectId → Option Object) (object : Object) (p : Profile) :
    (gateTerms find object p).Invariant where
  holds := fun _ _ _ => True
  stop := fun _ _ _ _ => trivial
  push := fun _ _ _ _ => trivial

theorem gated_of_outcome {question : Question} {doc : Document} {maxDepth : Nat}
    {patience? : Option Nat} {fault : Fault}
    (h : question.outcome doc p maxDepth patience? object = .error fault) :
    fault.Gated doc.get? object p := by
  have horderly : Orderly (gateTerms doc.get? object p) (fun _ => True)
      (question.inquiry p maxDepth object) :=
    question.orderly (gateTerms_admits doc.get? object p) (gateInvariant doc.get? object p) .self
      trivial
  rcases horderly.fault_of_verdict h with rfl | hfault
  · trivial
  · exact hfault

/-- In relaxed mode no entry is too new, and no external object is refused because its tag is missing
or unknown. An entry that is too new belongs to a later version than the one declared, and its key is
there. In strict mode nothing that is accepted has, in any container that a sheet was applied to, a
value under the key of a rule of that sheet that is newer than the document. -/
theorem outcome_gated (question : Question) (doc : Document) (p : Profile) (maxDepth : Nat)
    (patience? : Option Nat) (object : Object) :
    (p.mode = .relaxed →
      (∀ site since declared, question.outcome doc p maxDepth patience? object ≠
        .error (.tooNew site since declared)) ∧
      (∀ container subtype, question.outcome doc p maxDepth patience? object ≠
        .error (.unknownSubtype container subtype)) ∧
      question.outcome doc p maxDepth patience? object ≠
        .error (.missingEntry ⟨"xObjectStream", "Subtype"⟩)) ∧
    (∀ site since declared, question.outcome doc p maxDepth patience? object =
        .error (.tooNew site since declared) →
      p.mode = .strict ∧ declared = p.version ∧ p.version.rank < since.rank ∧
        ∃ container header, Occurs doc.get? object container ∧ container.header? = some header ∧
          Dict.has header (Text.Utf8.encode site.key) = true) ∧
    (p.mode = .strict → question.outcome doc p maxDepth patience? object = .ok () →
      ∀ path (schema : Schema) value sheet header rule part,
        question.Judges doc.get? p object path schema value →
        schema.Applies doc.get? p value sheet header → rule ∈ sheet.rules →
        p.version.rank < rule.introduced.rank → ¬ Yields doc.get? header rule.key part) := by
  refine ⟨fun hrelaxed => ⟨?_, ?_, ?_⟩, ?_, ?_⟩
  · intro site since declared hfault
    have hstrict : p.mode = .strict := (gated_of_outcome hfault).1
    rw [hrelaxed] at hstrict
    cases hstrict
  · intro container subtype hfault
    have hstrict : p.mode = .strict := gated_of_outcome hfault
    rw [hrelaxed] at hstrict
    cases hstrict
  · intro hfault
    have hstrict : p.mode = .strict := gated_of_outcome hfault rfl
    rw [hrelaxed] at hstrict
    cases hstrict
  · intro site since declared hfault
    exact gated_of_outcome hfault
  · intro hstrict hok path schema value sheet header rule part hjudges happlies hrule hlt hyields
    obtain ⟨levels, trail, -, hjudge⟩ := hjudges.run (run_of_verdict hok)
    obtain ⟨found?, hcheck⟩ := Sheet.exists_run_of_mem_rules (happlies.run hjudge) hrule
    have haccepts := Rule.not_refuses_of_yields hcheck hyields
    rw [Profile.refuses_iff.mpr ⟨hstrict, hlt⟩] at haccepts
    cases haccepts

/-- A document of which nothing is stored. -/
def bare : Document := ⟨"1.3", [], .empty⟩

/-- The header of a grey image. -/
def grey : Dict := [
  (Text.Utf8.encode "Subtype", .name (Text.Utf8.encode "Image")),
  (Text.Utf8.encode "Width", .integer 1),
  (Text.Utf8.encode "Height", .integer 1),
  (Text.Utf8.encode "ColorSpace", .name (Text.Utf8.encode "DeviceGray")),
  (Text.Utf8.encode "BitsPerComponent", .integer 8)]

/-- The header of a grey image with this for its soft mask. -/
def masked (mask : Object) : Dict := grey ++ [(Text.Utf8.encode "SMask", mask)]

/-- Soft masks are newer than the document: one that is there is refused in strict mode, and where
the image is accepted there is none, but a reference that leads nowhere. -/
theorem outcome_gated_softMask :
    (Question.external .any).outcome bare ⟨.v1_3, .strict⟩ 2 none (.stream (masked (.stream grey))) =
        .error (.tooNew ⟨"imageStream", "SMask"⟩ .v1_4 .v1_3) ∧
      Version.v1_3.rank < Version.v1_4.rank ∧
      (Question.external .any).outcome bare ⟨.v1_3, .relaxed⟩ 2 none
        (.stream (masked (.stream grey))) ≠
        .error (.tooNew ⟨"imageStream", "SMask"⟩ .v1_4 .v1_3) ∧
      (Question.external .any).outcome bare ⟨.v1_3, .strict⟩ 2 none
        (.stream (masked (.reference ⟨9, 0⟩))) = .ok () ∧
      ∀ part, ¬ Yields bare.get? (masked (.reference ⟨9, 0⟩)) "SMask" part := by
  have hrefused : (Question.external .any).outcome bare ⟨.v1_3, .strict⟩ 2 none
      (.stream (masked (.stream grey))) =
        .error (.tooNew ⟨"imageStream", "SMask"⟩ .v1_4 .v1_3) := by rfl
  have hok : (Question.external .any).outcome bare ⟨.v1_3, .strict⟩ 2 none
      (.stream (masked (.reference ⟨9, 0⟩))) = .ok () := by rfl
  obtain ⟨-, hsound, -⟩ := outcome_gated (.external .any) bare ⟨.v1_3, .strict⟩ 2 none
    (.stream (masked (.stream grey)))
  obtain ⟨hrelaxed, -, -⟩ := outcome_gated (.external .any) bare ⟨.v1_3, .relaxed⟩ 2 none
    (.stream (masked (.stream grey)))
  obtain ⟨-, -, hcomplete⟩ := outcome_gated (.external .any) bare ⟨.v1_3, .strict⟩ 2 none
    (.stream (masked (.reference ⟨9, 0⟩)))
  refine ⟨hrefused, (hsound _ _ _ hrefused).2.2.1, (hrelaxed rfl).1 _ _ _, hok, fun part => ?_⟩
  have hstencil : false = true ↔ Yields bare.get? (masked (.reference ⟨9, 0⟩))
      Grammar.imageMask.key (.boolean true) := by
    refine ⟨nofun, ?_⟩
    rintro ⟨-, stored, hget, -⟩
    cases hget
  exact hcomplete rfl hok [] (.external .any) _ (Grammar.image .primary false) _
    (Rule.optional "SMask" .stream |> Rule.since .v1_4) part (.start (.direct rfl) rfl)
    (.designated rfl (.image hstencil)) (by decide) (by decide)

end PdfConformance

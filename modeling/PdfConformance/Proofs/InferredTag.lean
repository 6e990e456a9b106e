import PdfConformance.Proofs.Judgement.Variation
import PdfConformance.Proofs.Rule.Meaning

/-! # External objects without a usable tag

`outcome_inferredTag`: in relaxed mode an external object that lacks a tag, or has an unknown one, is
judged as if its header had the tag that it is taken for. The two walks come to the same designation
by different ways; from there on nothing looks at the tag of the object itself. -/

namespace PdfConformance

open Inquiry

variable {find : ObjectId → Option Object} {p : Profile} {header header' : Dict} {hint : Hint}
  {c : String}

/-- There is no tag, or one that the format does not define. -/
def Container.LacksTag (k : Container) : Prop :=
  k.Allows "Subtype" fun value =>
    value.OfKind [.name] ∧ ¬ value.Spells ["Form", "Image", "PS"]

/-- The tag of what the object is taken for: what the caller expects, or else a form if there is a
bounding box, and an image otherwise. -/
def inferredTag (header : Dict) : Hint → String
  | .form => "Form"
  | .image => "Image"
  | .any => if Dict.has header (Text.Utf8.encode "BBox") then "Form" else "Image"

theorem inferredTag_mem (header : Dict) (hint : Hint) :
    inferredTag header hint ∈ ["Form", "Image"] := by
  cases hint with
  | any =>
    simp only [inferredTag]
    split <;> simp
  | form => simp [inferredTag]
  | image => simp [inferredTag]

namespace Designation

theorem isUsable_ofSubtype_some {text : String} :
    (ofSubtype (some text)).isUsable = true ↔ text ∈ ["Form", "Image", "PS"] := by
  simp only [ofSubtype]
  split_ifs <;> simp_all [isUsable]

theorem ofSubtype_inferredTag (header : Dict) (hint : Hint) :
    ofSubtype (some (inferredTag header hint)) = infer header hint := by
  cases hint with
  | any =>
    simp only [inferredTag, infer]
    split <;> rfl
  | form => rfl
  | image => rfl

/-- A name is as good a tag as its text. -/
theorem isUsable_iff_spells {value : Object} {text : String} (htext : value.nameText? = some text) :
    (ofSubtype (some text)).isUsable = true ↔ value.Spells ["Form", "Image", "PS"] := by
  rw [isUsable_ofSubtype_some, ColourSpace.spells_iff (by decide), htext]
  simp

end Designation

/-! ## Reading the tag -/

/-- What the tag tells is told by its entry. -/
theorem Container.lacksTag_congr
    (hget : Dict.get? header' (Text.Utf8.encode "Subtype") =
      Dict.get? header (Text.Utf8.encode "Subtype")) :
    (Container.mk find p header').LacksTag ↔ (Container.mk find p header).LacksTag := by
  simp only [LacksTag, Allows, Absent, Holds, Usable, hget]

theorem exists_run_of_lacksTag (h : (Container.mk find p header).LacksTag) (c : String) :
    ∃ subtype?, (Grammar.externalSubtype.check p c header).run find = .ok subtype? := by
  rw [Rule.exists_run_iff]
  rcases h with habsent | ⟨stored, value, husable, hname, -⟩
  · exact .inl ⟨by simp [Grammar.externalSubtype, Rule.isRequired, Demand.holds], habsent⟩
  · refine .inr ⟨Container.permits_v1_0 p, stored, value, husable, hname, ?_⟩
    rintro limit ⟨⟩

/-- Where the check of the tag finds no fault, the tag is usable unless it is lacking. -/
theorem isUsable_declared_iff {subtype? : Option Entry}
    (h : (Grammar.externalSubtype.check p c header).run find = .ok subtype?) :
    (Designation.declared subtype?).isUsable = false ↔ (Container.mk find p header).LacksTag := by
  cases subtype? with
  | none =>
    have habsent := (Rule.run_check_eq_none.mp h).2
    exact iff_of_true rfl (.inl habsent)
  | some entry =>
    obtain ⟨-, husable, haccepts⟩ := Rule.run_check_eq_some.mp h
    obtain ⟨spelling, hspelling⟩ := Object.eq_name_of_kind (List.mem_singleton.mp haccepts.ofKind)
    have hiff : (Designation.declared (some entry)).isUsable = true ↔
        entry.value.Spells ["Form", "Image", "PS"] := by
      have htext : entry.value.nameText? = some (Text.Utf8.decodeLossy spelling) := by
        rw [hspelling]
        rfl
      rw [← Designation.isUsable_iff_spells htext, Designation.declared, Option.bind_some, htext]
    rw [← Bool.not_eq_true, hiff]
    constructor
    · intro hnot
      exact .inr ⟨entry.stored, entry.value, husable, haccepts.ofKind, hnot⟩
    · rintro (habsent | ⟨stored, value, husable', -, hnot⟩)
      · exact absurd habsent husable.not_absent
      · rwa [← husable.unique husable']

/-! ## Both ways to a designation -/

/-- What is taken for the object does not contradict the caller. -/
theorem settle_infer (header : Dict) :
    settle p hint header' (.infer header hint) = .done (.infer header hint) := by
  have husable : (Designation.infer header hint).isUsable = true := by
    rw [← Designation.ofSubtype_inferredTag, Designation.isUsable_ofSubtype_some]
    exact List.Sublist.mem (inferredTag_mem header hint) (by decide)
  have hagrees : (Designation.infer header hint).contradicts hint = false := by
    cases hint with
    | any => cases Designation.infer header .any <;> rfl
    | form => rfl
    | image => rfl
  unfold settle
  rw [husable, hagrees]
  rfl

/-- What is settled on depends on the tag that has been read, if the type is in order. -/
theorem run_designate {subtype? : Option Entry}
    (h : (Grammar.externalSubtype.check p Grammar.external header).run find = .ok subtype?) :
    (designate p hint header).run find =
      (Grammar.externalType.check p Grammar.external header >>= fun _ =>
        settle p hint header (.declared subtype?)).run find := by
  unfold designate
  apply run_bind_congr
  intro _ _
  exact run_bind_of_run h _

/-- In relaxed mode an object without a usable tag is taken for something. -/
theorem run_designate_of_lacksTag (hrelaxed : p.mode = .relaxed)
    (h : (Container.mk find p header).LacksTag) :
    (designate p hint header).run find =
      (Grammar.externalType.check p Grammar.external header >>= fun _ =>
        .done (.infer header hint)).run find := by
  obtain ⟨subtype?, hsubtype⟩ := exists_run_of_lacksTag h Grammar.external
  have husable := (isUsable_declared_iff hsubtype).mpr h
  rw [run_designate hsubtype, settle, husable, hrelaxed]
  rfl

/-- So is an object that has the tag of that. -/
theorem run_designate_of_inferredTag
    (htag : Dict.get? header' (Text.Utf8.encode "Subtype") =
      some (.name (Text.Utf8.encode (inferredTag header hint)))) :
    (designate p hint header').run find =
      (Grammar.externalType.check p Grammar.external header' >>= fun _ =>
        .done (.infer header hint)).run find := by
  let tag : Object := .name (Text.Utf8.encode (inferredTag header hint))
  have hsubtype : (Grammar.externalSubtype.check p Grammar.external header').run find =
      .ok (some ⟨tag, tag⟩) := by
    refine Rule.run_check_of_direct (Container.permits_v1_0 p) htag rfl (by simp) ?_
    exact .of_unlimited rfl (List.mem_singleton.mpr rfl)
  have htext : tag.nameText? = some (inferredTag header hint) := by
    have hascii : ∀ tag ∈ ["Form", "Image"], Text.Utf8.isAscii tag.toList = true := by decide
    exact congrArg some
      ((Text.Utf8.decodeLossy_eq_iff (hascii _ (inferredTag_mem header hint))).mpr rfl)
  rw [run_designate hsubtype, Designation.declared, Option.bind_some, htext,
    Designation.ofSubtype_inferredTag, settle_infer]

/-- Nothing that a form or a primary image is held to is about its tag. -/
theorem Designation.Binds.key_ne_subtype {designation : Designation} {sheet : Sheet} {rule : Rule}
    (h : designation.Binds find header sheet) (hrule : rule ∈ sheet.rules) :
    Text.Utf8.encode rule.key ≠ Text.Utf8.encode "Subtype" := by
  have hne : ∀ key ∈ ownKeys, Text.Utf8.encode key ≠ Text.Utf8.encode "Subtype" := by decide
  exact hne _ (h.key_mem hrule)

/-- In relaxed mode an object without a usable tag is judged as if it had the tag of what it is taken
for. -/
theorem outcome_inferredTag (doc : Document) (version : Version) (maxDepth : Nat) (hint : Hint)
    (header : Dict) (h : (Container.mk doc.get? ⟨version, .relaxed⟩ header).LacksTag) :
    (Question.external hint).outcome doc ⟨version, .relaxed⟩ maxDepth none (.stream header) =
      (Question.external hint).outcome doc ⟨version, .relaxed⟩ maxDepth none
        (.stream (Dict.set header (Text.Utf8.encode "Subtype")
          (.name (Text.Utf8.encode (inferredTag header hint))))) := by
  have hbeside := Dict.sameBeside_set header (Text.Utf8.encode "Subtype")
    (.name (Text.Utf8.encode (inferredTag header hint)))
  have hfilters := hbeside.sameFilters (by decide)
  symm
  apply Question.outcome_stream_congr
  · rw [run_designate_of_lacksTag rfl h,
      run_designate_of_inferredTag (Dict.get?_set_self header _ _),
      hbeside.check_eq hfilters (by decide)]
  · intro designation _ sheet hbinds rule hrule
    rw [hbeside.check_eq hfilters (hbinds.key_ne_subtype hrule)]

/-- The tag is stored as an object of its own, and names nothing that the format defines. -/
def picture : Document where
  header := "1.7"
  trailer := []
  objects := .ofList [(⟨2, 0⟩, .name (Text.Utf8.encode "Picture"))]
where
  entries : Dict := [
    (Text.Utf8.encode "Subtype", .reference ⟨2, 0⟩),
    (Text.Utf8.encode "Width", .integer 1),
    (Text.Utf8.encode "Height", .integer 1),
    (Text.Utf8.encode "ImageMask", .boolean true)]
  tagged : Dict :=
    Dict.set entries (Text.Utf8.encode "Subtype") (.name (Text.Utf8.encode "Image"))

/-- Without a bounding box it is taken for an image. -/
theorem outcome_inferredTag_picture :
    (Container.mk picture.get? ⟨.v1_7, .relaxed⟩ picture.entries).LacksTag ∧
      (Question.external .any).outcome picture ⟨.v1_7, .relaxed⟩ 64 none
        (.stream picture.tagged) = .ok () ∧
      (Question.external .any).outcome picture ⟨.v1_7, .relaxed⟩ 64 none
        (.stream picture.entries) = .ok () := by
  have hlacks : (Container.mk picture.get? ⟨.v1_7, .relaxed⟩ picture.entries).LacksTag := by
    refine .inr ⟨.reference ⟨2, 0⟩, .name (Text.Utf8.encode "Picture"), ⟨rfl, ?_, by simp⟩,
      List.mem_singleton.mpr rfl, ?_⟩
    · exact ⟨[⟨2, 0⟩], by decide, .through rfl (by simp) (.direct rfl)⟩
    · rintro ⟨word, hword, heq⟩
      have hne : ∀ word ∈ ["Form", "Image", "PS"],
          Text.Utf8.encode "Picture" ≠ Text.Utf8.encode word := by decide
      exact hne word hword (Object.name.inj heq)
  have htagged : (Question.external .any).outcome picture ⟨.v1_7, .relaxed⟩ 64 none
      (.stream picture.tagged) = .ok () := by rfl
  have hsame := outcome_inferredTag picture .v1_7 64 .any picture.entries hlacks
  exact ⟨hlacks, htagged, hsame.trans htagged⟩

end PdfConformance

import PdfConformance.Proofs.Grammar.Parts

/-! # Names are told apart by their octets

Some names are compared by the text they are read as, others by their octets. `readByOctets`: it
comes to the same, whatever the octets are. No ill-formed or overlong sequence is read as a text in
ASCII, and the words that names are compared with are all in ASCII. -/

namespace PdfConformance

open Inquiry Text.Utf8

variable {find : ObjectId → Option Object} {p : Profile} {site : Site} {spelling : Bytes}

namespace Designation

variable {text : String}

theorem ofSubtype_eq_form : ofSubtype (some text) = form ↔ text = "Form" := by
  simp only [ofSubtype]
  split_ifs <;> simp_all

theorem ofSubtype_eq_image : ofSubtype (some text) = image ↔ text = "Image" := by
  simp only [ofSubtype]
  split_ifs <;> simp_all

theorem ofSubtype_eq_postScript : ofSubtype (some text) = postScript ↔ text = "PS" := by
  simp only [ofSubtype]
  split_ifs <;> simp_all

end Designation

/-- A name is one of the words if it has the octets of one. -/
theorem Object.spells_name_iff {words : List String} :
    (Object.name spelling).Spells words ↔ ∃ word ∈ words, spelling = encode word := by
  simp [Spells]

namespace ColourSpace

/-- The name that tells which colour space a value is: the value itself, or what an array begins
with. -/
inductive ToldBy (find : ObjectId → Option Object) (spelling : Bytes) : Object → Prop
  | name : ToldBy find spelling (.name spelling)
  | family {first : Object} (rest : List Object) : Resolves find first (.name spelling) →
      ToldBy find spelling (.array (first :: rest))

theorem run_check_family {first : Object} (rest : List Object)
    (h : Resolves find first (.name spelling)) :
    (Shape.colourSpace.check p site (.array (first :: rest))).run find =
      (checkName site families (decodeLossy spelling)).run find :=
  run_bind_of_run (run_valueOf_eq_ok.mpr h) _

/-- Of the two reasons to refuse a name only one is for patterns. -/
theorem run_checkName_eq_pattern {known : List String} {name : String} :
    (checkName site known name).run find = .error (.constraint site .patternColourSpace) ↔
      name = "Pattern" := by
  unfold checkName
  split_ifs with hpattern
  · exact iff_of_true rfl hpattern
  · refine iff_of_false ?_ hpattern
    cases known.contains name <;> simp [Inquiry.require, run]

theorem ToldBy.run_check_eq_pattern {value : Object} (h : ToldBy find spelling value) :
    (Shape.colourSpace.check p site value).run find =
      .error (.constraint site .patternColourSpace) ↔ decodeLossy spelling = "Pattern" := by
  cases h with
  | name => exact run_checkName_eq_pattern
  | family rest hfirst =>
    rw [run_check_family rest hfirst]
    exact run_checkName_eq_pattern

end ColourSpace

/-- What a name is taken for depends on its octets as it does on the text they are read as. -/
structure ReadByOctets (spelling : Bytes) : Prop where
  text (text : String) : isAscii text.toList = true →
    (decodeLossy spelling = text ↔ spelling = encode text)
  form : Designation.ofSubtype (Object.name spelling).nameText? = .form ↔
    spelling = encode "Form"
  image : Designation.ofSubtype (Object.name spelling).nameText? = .image ↔
    spelling = encode "Image"
  postScript : Designation.ofSubtype (Object.name spelling).nameText? = .postScript ↔
    spelling = encode "PS"
  /-- The key of a prepress dictionary. -/
  prepress13 : Grammar.prepressTable? (decodeLossy spelling) = some Grammar.prepress13 ↔
    spelling = encode "1.3"
  prepress20 : Grammar.prepressTable? (decodeLossy spelling) = some Grammar.prepress20 ↔
    spelling = encode "2.0"
  device (find : ObjectId → Option Object) (p : Profile) (site : Site) :
    (Shape.colourSpace.check p site (.name spelling)).run find = .ok () ↔
      ∃ word ∈ ["DeviceGray", "DeviceRGB", "DeviceCMYK"], spelling = encode word
  /-- What a colour space that is an array begins with. -/
  family (find : ObjectId → Option Object) (p : Profile) (site : Site) (first : Object)
    (rest : List Object) : Resolves find first (.name spelling) →
    ((Shape.colourSpace.check p site (.array (first :: rest))).run find = .ok () ↔
      ∃ word ∈ ["CalGray", "CalRGB", "Lab", "ICCBased", "Indexed", "Separation", "DeviceN",
        "DeviceGray", "DeviceRGB", "DeviceCMYK"], spelling = encode word)
  pattern (find : ObjectId → Option Object) (p : Profile) (site : Site) (value : Object) :
    ColourSpace.ToldBy find spelling value →
    ((Shape.colourSpace.check p site value).run find =
      .error (.constraint site .patternColourSpace) ↔ spelling = encode "Pattern")
  /-- The words of a rule, which are compared by their octets. -/
  oneOf (words : List String) : (∀ word ∈ words, isAscii word.toList = true) →
    ((Limit.oneOf words).holds (.name spelling) = true ↔ decodeLossy spelling ∈ words)
  /-- A filter, which is compared by its octets. -/
  soleFilter (header : Dict) (filter : String) : isAscii filter.toList = true →
    Dict.get? header (encode "Filter") = some (.name spelling) ∨
      Dict.get? header (encode "Filter") = some (.array [.name spelling]) →
    (Dict.filteredOnlyBy header filter = true ↔ decodeLossy spelling = filter)

/-- No two names are confused by what they are read as. -/
theorem readByOctets (spelling : Bytes) : ReadByOctets spelling := by
  have read {word : String} (hascii : isAscii word.toList = true) :
      decodeLossy spelling = word ↔ spelling = encode word :=
    decodeLossy_eq_iff hascii
  refine ⟨fun text hascii => read hascii, ?_, ?_, ?_, ?_, ?_, ?_, ?_, ?_, ?_, ?_⟩
  · exact Designation.ofSubtype_eq_form.trans (read (by decide))
  · exact Designation.ofSubtype_eq_image.trans (read (by decide))
  · exact Designation.ofSubtype_eq_postScript.trans (read (by decide))
  · simp [prepressTable?_decodeLossy_iff, show Grammar.prepress20 ≠ Grammar.prepress13 by decide]
  · simp [prepressTable?_decodeLossy_iff, show Grammar.prepress13 ≠ Grammar.prepress20 by decide]
  · intro find p site
    rw [← Object.spells_name_iff]
    exact ColourSpace.run_checkName_eq_ok (by decide) (by decide) rfl
  · intro find p site first rest hfirst
    rw [ColourSpace.run_check_family rest hfirst, ← Object.spells_name_iff]
    exact ColourSpace.run_checkName_eq_ok (by decide) (by decide) rfl
  · intro find p site value htold
    exact htold.run_check_eq_pattern.trans (read (by decide))
  · intro words hascii
    rw [Limit.holds_oneOf_iff, ColourSpace.spells_iff hascii]
    simp [Object.nameText?]
  · intro header filter hascii hfilter
    rw [read hascii]
    unfold Dict.filteredOnlyBy
    rcases hfilter with hname | harray
    · simp [hname]
    · simp [harray]

/-- An overlong sequence is not read as the letter that it encodes, wherever the name stands. -/
theorem readByOctets_overlong :
    let overlong : Bytes := [0xC1, 0x86] ++ encode "orm"
    let header : Dict := [(encode "Filter", .array [.name overlong])]
    ¬ decodeLossy overlong = "Form" ∧
      ¬ Designation.ofSubtype (Object.name overlong).nameText? = .form ∧
      ¬ Dict.filteredOnlyBy header "Form" = true ∧
      (Limit.oneOf ["Form"]).holds (.name overlong) = false := by
  intro overlong header
  have hread := readByOctets overlong
  have hoctets : ¬ overlong = encode "Form" := by decide
  have htext : ¬ decodeLossy overlong = "Form" :=
    fun h => hoctets ((hread.text "Form" (by decide)).mp h)
  refine ⟨htext, fun h => hoctets (hread.form.mp h), fun h => htext ?_, ?_⟩
  · exact (hread.soleFilter header "Form" (by decide) (.inr rfl)).mp h
  · have hword := hread.oneOf ["Form"] (by decide)
    simpa [htext] using hword

end PdfConformance

import Mathlib.Tactic.MkIffOfInductiveProp
import PdfConformance.Proofs.Judgement.Meaning

/-! # What parts of external objects conform

The containers that images and forms may hold, each told by what stands under its keys. Of metadata
and optional content only the tags are looked at. -/

namespace PdfConformance

/-- Metadata are tagged as such in strict mode; a tag that is present is never another. -/
@[mk_iff]
structure IsMetadata (k : Container) : Prop where
  type : k.HoldsIf (k.profile.mode = .strict) "Type" (Object.Spells ["Metadata"])
  subtype : k.HoldsIf (k.profile.mode = .strict) "Subtype" (Object.Spells ["XML"])

/-- A group of optional content, or a membership in one. -/
@[mk_iff]
structure IsOptionalContent (k : Container) : Prop where
  type : k.HoldsIf (k.profile.mode = .strict) "Type" (Object.Spells ["OCG", "OCMD"])

@[mk_iff]
structure IsTransparencyGroup (k : Container) : Prop where
  type : k.Allows "Type" (Object.Spells ["Group"])
  subtype : k.Holds "S" (Object.Spells ["Transparency"])
  colourSpace : k.Allows "CS" (Object.IsColourSpace k.find)
  isolated : k.Allows "I" (Object.OfKind [.boolean])
  knockout : k.Allows "K" (Object.OfKind [.boolean])

/-- The page of another document that a form stands for, by its number or its label. -/
@[mk_iff]
structure IsReferencedPage (k : Container) : Prop where
  file : k.Holds "F" (Object.OfKind [.literalString, .hexString, .dictionary])
  page : k.Holds "Page" (Object.OfKind [.integer, .literalString, .hexString])
  id : k.Allows "ID" (Object.TupleOf k.find 2 (Object.OfKind Kind.strings))

/-- The data of one application, with the date of their last modification. -/
def IsPieceData (k : Container) : Prop := k.Holds "LastModified" (Object.IsDate k.profile.mode)

/-- The data of any number of applications. -/
def IsPieceInfo (k : Container) : Prop :=
  ∀ piece ∈ k.entries, ∃ data, Resolves k.find piece.2 (.dictionary data) ∧
    IsPieceData (k.withEntries data)

@[mk_iff]
structure IsPrepress13 (k : Container) : Prop where
  type : k.Allows "Type" (Object.Spells ["OPI"])
  version : k.Holds "Version" (Object.Near (13 / 10))
  file : k.Holds "F" (Object.OfKind [.literalString, .hexString, .dictionary])
  id : k.Allows "ID" (Object.OfKind Kind.strings)
  comments : k.Allows "Comments" (Object.OfKind Kind.strings)
  size : k.Holds "Size" (Object.TupleOf k.find 2 (Object.OfKind [.integer]))
  cropRect : k.Holds "CropRect" (Object.IsRectangle k.find)
  cropFixed : k.Allows "CropFixed" (Object.IsRectangle k.find)
  position : k.Holds "Position" (Object.TupleOf k.find 8 (Object.OfKind Kind.numbers))
  resolution : k.Allows "Resolution" (Object.TupleOf k.find 2 (Object.OfKind Kind.numbers))
  colourType : k.Allows "ColorType" (Object.Spells ["Process", "Spot", "Separation"])
  colour : k.Allows "Color" (Object.OfLength 5)
  tint : k.Allows "Tint" (Object.OfKind Kind.numbers)
  overprint : k.Allows "Overprint" (Object.OfKind [.boolean])
  imageType : k.Allows "ImageType" (Object.TupleOf k.find 2 (Object.OfKind [.integer]))
  greyMap : k.Allows "GrayMap" (Object.ArrayOf k.find (Object.OfKind [.integer]))
  transparency : k.Allows "Transparency" (Object.OfKind [.boolean])
  tags : k.Allows "Tags" (Object.OfKind [.array])
  inks : k.Allows "Inks" fun value =>
    value.Spells ["full_color", "registration"] ∨ value.OfKind [.array]

@[mk_iff]
structure IsPrepress20 (k : Container) : Prop where
  type : k.Allows "Type" (Object.Spells ["OPI"])
  version : k.Holds "Version" (Object.Near 2)
  file : k.Holds "F" (Object.OfKind [.literalString, .hexString, .dictionary])
  mainImage : k.Allows "MainImage" (Object.OfKind Kind.strings)
  tags : k.Allows "Tags" (Object.OfKind [.array])
  size : k.Allows "Size" (Object.TupleOf k.find 2 (Object.OfKind Kind.numbers))
  cropRect : k.Allows "CropRect" (Object.IsRectangle k.find)
  overprint : k.Allows "Overprint" (Object.OfKind [.boolean])
  inks : k.Allows "Inks" fun value =>
    value.Spells ["full_color", "registration"] ∨ value.OfKind [.array]
  dimensions : k.Allows "IncludedImageDimensions"
    (Object.TupleOf k.find 2 (Object.OfKind [.integer]))
  quality : k.Allows "IncludedImageQuality" (Object.Between 1 3)

/-- One prepress dictionary, under the key that is its version. -/
def IsPrepress (walk : Walk) (k : Container) : Prop :=
  ∃ version stored entries, k.entries = [(version, stored)] ∧ walk.Admits stored ∧
    Resolves k.find stored (.dictionary entries) ∧
    (version = Text.Utf8.encode "1.3" ∧ IsPrepress13 (k.withEntries entries) ∨
      version = Text.Utf8.encode "2.0" ∧ IsPrepress20 (k.withEntries entries))

open Inquiry

variable {find : ObjectId → Option Object} {p : Profile} {header : Dict}

theorem run_metadata_iff : (Grammar.metadataStream.check p header).run find = .ok () ↔
    IsMetadata ⟨find, p, header⟩ := by
  rw [RuleTable.run_check_iff, isMetadata_iff]
  simp [Grammar.metadataStream, Container.Demands]

theorem run_optionalContent_iff :
    (Grammar.optionalContentDictionary.check p header).run find = .ok () ↔
      IsOptionalContent ⟨find, p, header⟩ := by
  rw [RuleTable.run_check_iff, isOptionalContent_iff]
  simp [Grammar.optionalContentDictionary, Container.Demands]

theorem run_transparencyGroup_iff : (Grammar.transparencyGroup.check p header).run find = .ok () ↔
    IsTransparencyGroup ⟨find, p, header⟩ := by
  rw [RuleTable.run_check_iff, isTransparencyGroup_iff]
  simp [Grammar.transparencyGroup, Container.Demands, Shape.Fits, Shape.kinds]

theorem run_referencedPage_iff : (Grammar.referencedPage.check p header).run find = .ok () ↔
    IsReferencedPage ⟨find, p, header⟩ := by
  rw [RuleTable.run_check_iff, isReferencedPage_iff]
  simp [Grammar.referencedPage, Container.Demands, Shape.Fits, Shape.kinds]

theorem run_prepress13_iff : (Grammar.prepress13.check p header).run find = .ok () ↔
    IsPrepress13 ⟨find, p, header⟩ := by
  rw [RuleTable.run_check_iff, isPrepress13_iff]
  simp [Grammar.prepress13, Grammar.inks, Container.Demands, Shape.Fits, Shape.kinds]

theorem run_prepress20_iff : (Grammar.prepress20.check p header).run find = .ok () ↔
    IsPrepress20 ⟨find, p, header⟩ := by
  rw [RuleTable.run_check_iff, isPrepress20_iff]
  have htwo : (20 / 10 : ℚ) = 2 := by norm_num
  simp [Grammar.prepress20, Grammar.inks, Container.Demands, Shape.Fits, Shape.kinds, htwo]

theorem run_pieceData_iff : (Grammar.pieceData.check p header).run find = .ok () ↔
    IsPieceData ⟨find, p, header⟩ := by
  rw [RuleTable.run_check_iff]
  simp [Grammar.pieceData, Container.Demands, Shape.Fits, IsPieceData]

/-! ## Collections -/

variable {levels : Nat} {trail : Trail} {entries : Dict} {c : String}

/-- Going on with a value where nothing but a dictionary will do. -/
theorem run_valueOf_dictionary {site : Site} {stored : Object} {f : Object → Inquiry Unit}
    (hother : ∀ value, value.kind ≠ .dictionary → (f value).run find ≠ .ok ()) :
    (valueOf site stored >>= f).run find = .ok () ↔
      ∃ entries, Resolves find stored (.dictionary entries) ∧
        (f (.dictionary entries)).run find = .ok () := by
  constructor
  · intro h
    obtain ⟨value, hvalue, h⟩ := exists_of_run_bind h
    have hkind : value.kind = .dictionary := by
      by_contra hkind
      exact hother value hkind h
    obtain ⟨entries, rfl⟩ := Object.eq_dictionary_of_kind hkind
    exact ⟨entries, run_valueOf_eq_ok.mp hvalue, h⟩
  · rintro ⟨entries, hresolves, h⟩
    rw [run_bind_of_run (run_valueOf_eq_ok.mpr hresolves)]
    exact h

theorem run_judgePiece_iff {piece : Bytes × Object} : (judgePiece p piece).run find = .ok () ↔
    ∃ data, Resolves find piece.2 (.dictionary data) ∧ IsPieceData ⟨find, p, data⟩ := by
  unfold judgePiece
  rw [run_valueOf_dictionary]
  · simp only [run_pieceData_iff]
  · intro value hkind h
    cases value with
    | dictionary _ => exact hkind rfl
    | _ => cases h

theorem run_pieceInfo_iff : (entries.forM (judgePiece p)).run find = .ok () ↔
    IsPieceInfo ⟨find, p, entries⟩ := by
  rw [run_forM_eq_ok]
  exact forall₂_congr fun piece _ => run_judgePiece_iff

theorem prepressTable?_decodeLossy_iff {version : Bytes} {table : RuleTable} :
    Grammar.prepressTable? (Text.Utf8.decodeLossy version) = some table ↔
      version = Text.Utf8.encode "1.3" ∧ Grammar.prepress13 = table ∨
        version = Text.Utf8.encode "2.0" ∧ Grammar.prepress20 = table := by
  have h13 : Text.Utf8.decodeLossy version = "1.3" ↔ version = Text.Utf8.encode "1.3" :=
    Text.Utf8.decodeLossy_eq_iff (by decide)
  have h20 : Text.Utf8.decodeLossy version = "2.0" ↔ version = Text.Utf8.encode "2.0" :=
    Text.Utf8.decodeLossy_eq_iff (by decide)
  unfold Grammar.prepressTable?
  rw [← h13, ← h20]
  split
  · rename_i heq
    simp [heq]
  · split
    · rename_i heq
      simp [heq]
    · rename_i hfirst hsecond
      simp [hfirst, hsecond]

/-- The dictionary under a key that names a version. -/
theorem run_judgePrepress_singleton {version : Bytes} {stored : Object} :
    (judgePrepress (deeper p levels trail) [(version, stored)]).run find = .ok () ↔
      ∃ table, Grammar.prepressTable? (Text.Utf8.decodeLossy version) = some table ∧
        ∃ entries, Resolves find stored (.dictionary entries) ∧
          (Walk.mk levels trail).Admits stored ∧ (table.check p entries).run find = .ok () := by
  cases htable : Grammar.prepressTable? (Text.Utf8.decodeLossy version) with
  | none =>
    simp only [judgePrepress, htable]
    constructor
    · intro h
      cases h
    · rintro ⟨table, h, -⟩
      cases h
  | some table =>
    simp only [judgePrepress, htable]
    rw [run_valueOf_dictionary]
    · simp only [run_deeper_eq_ok, judge, Option.some.injEq, exists_eq_left']
    · intro value hkind h
      cases value with
      | dictionary _ => exact hkind rfl
      | _ => cases h

theorem run_judgePrepress_iff :
    (judgePrepress (deeper p levels trail) entries).run find = .ok () ↔
      IsPrepress ⟨levels, trail⟩ ⟨find, p, entries⟩ := by
  constructor
  · intro h
    obtain ⟨version, stored, rfl⟩ : ∃ version stored, entries = [(version, stored)] := by
      rcases entries with _ | ⟨⟨version, stored⟩, _ | ⟨_, _⟩⟩
      · cases h
      · exact ⟨version, stored, rfl⟩
      · cases h
    obtain ⟨table, htable, data, hresolves, hadmits, h⟩ := run_judgePrepress_singleton.mp h
    refine ⟨version, stored, data, rfl, hadmits, hresolves, ?_⟩
    rcases prepressTable?_decodeLossy_iff.mp htable with ⟨rfl, rfl⟩ | ⟨rfl, rfl⟩
    · exact .inl ⟨rfl, run_prepress13_iff.mp h⟩
    · exact .inr ⟨rfl, run_prepress20_iff.mp h⟩
  · rintro ⟨version, stored, data, hentries, hadmits, hresolves, hversion⟩
    cases (hentries : entries = [(version, stored)])
    rcases hversion with ⟨rfl, h⟩ | ⟨rfl, h⟩
    · have htable := prepressTable?_decodeLossy_iff.mpr (.inl ⟨rfl, rfl⟩)
      exact run_judgePrepress_singleton.mpr
        ⟨_, htable, data, hresolves, hadmits, run_prepress13_iff.mpr h⟩
    · have htable := prepressTable?_decodeLossy_iff.mpr (.inr ⟨rfl, rfl⟩)
      exact run_judgePrepress_singleton.mpr
        ⟨_, htable, data, hresolves, hadmits, run_prepress20_iff.mpr h⟩

/-! ## Clauses that images and forms share -/

theorem run_prepressClause_iff :
    (Grammar.prepress.check p (deeper p levels trail) c header).run find = .ok () ↔
      (Container.mk find p header).MayEnter ⟨levels, trail⟩ .v1_2 "OPI" fun inner =>
        (Container.mk find p header).Dictionary (IsPrepress inner) :=
  Clause.run_enter_dictionary rfl fun _ _ => run_judgePrepress_iff

theorem run_metadataClause_iff {enter : Enter} :
    (Grammar.metadata.check p enter c header).run find = .ok () ↔
      (Container.mk find p header).AllowsSince .v1_4 "Metadata"
        ((Container.mk find p header).Stream IsMetadata) := by
  unfold Grammar.metadata
  rw [Clause.run_inspect_iff Object.kind_eq_stream_iff fun _ => rfl]
  · simp only [run_metadata_iff, Rule.optional_eq, Rule.since_mk, Container.omits_never]
    rfl
  · intro value
    simp [Shape.Fits, Shape.kinds, Object.OfKind]

theorem run_optionalContentClause_iff {enter : Enter} :
    (Grammar.optionalContent.check p enter c header).run find = .ok () ↔
      (Container.mk find p header).AllowsSince .v1_5 "OC"
        ((Container.mk find p header).Dictionary IsOptionalContent) := by
  unfold Grammar.optionalContent
  rw [Clause.run_inspect_iff Object.kind_eq_dictionary_iff fun _ => rfl]
  · simp only [run_optionalContent_iff, Rule.optional_eq, Rule.since_mk, Container.omits_never]
    rfl
  · intro value
    simp [Shape.Fits, Shape.kinds, Object.OfKind]

end PdfConformance

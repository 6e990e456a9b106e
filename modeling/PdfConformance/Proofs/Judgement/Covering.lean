import PdfConformance.Proofs.Judgement.Agreement
import PdfConformance.Proofs.Judgement.Order
import PdfConformance.Proofs.Reference

/-! # Judgements that cover others

A container that is accepted covers what the values of its entries are judged by alone. Where an
image is judged as a mask, that covers its being judged as an external object: a mask is tagged as
an image, and has neither alternates nor, if it is an explicit one, a mask. -/

namespace PdfConformance

open Inquiry

namespace Object

variable {value : Object}

theorem eq_array_of_kind (h : value.kind = .array) : ∃ items, value = .array items := by
  cases value with
  | array items => exact ⟨items, rfl⟩
  | string form content => cases form <;> cases h
  | _ => cases h

theorem eq_dictionary_of_kind (h : value.kind = .dictionary) :
    ∃ entries, value = .dictionary entries := by
  cases value with
  | dictionary entries => exact ⟨entries, rfl⟩
  | string form content => cases form <;> cases h
  | _ => cases h

theorem eq_stream_of_kind (h : value.kind = .stream) : ∃ header, value = .stream header := by
  cases value with
  | stream header => exact ⟨header, rfl⟩
  | string form content => cases form <;> cases h
  | _ => cases h

theorem eq_name_of_kind (h : value.kind = .name) : ∃ spelling, value = .name spelling := by
  cases value with
  | name spelling => exact ⟨spelling, rfl⟩
  | string form content => cases form <;> cases h
  | _ => cases h

end Object

variable {find : ObjectId → Option Object} {p : Profile} {enter enter' : Enter}
  {c c' : String} {header : Dict} {stored value : Object}

/-! ## Rules -/

namespace Rule

variable {rule : Rule}

theorem reports_of_run {found? : Option Entry}
    (h : (rule.check p c header).run find = .ok found?) : rule.Reports find header found? :=
  (rule.check_orderly_of_missing (t := openTerms find) (fun _ _ => trivial) c (.inl trivial)
    fun _ _ => trivial).result_of_run h

/-- What stands under the key is what the rule reports, if it finds no fault with it. -/
theorem eq_of_run {found? : Option Entry} (h : (rule.check p c header).run find = .ok found?)
    (hget : Dict.get? header (Text.Utf8.encode rule.key) = some stored)
    (hstands : Stands find stored value) (hnull : value ≠ .null) :
    found? = some ⟨stored, value⟩ := by
  have hreports := reports_of_run h
  cases found? with
  | none =>
    rcases hreports stored hget with rfl | ⟨id, hastray⟩
    · exact absurd (hstands.eq_of_direct rfl) hnull
    · exact absurd hastray hstands.not_astray
  | some entry =>
    obtain ⟨hentry, hvalue, -⟩ := hreports
    rw [hget] at hentry
    cases hentry
    rw [← hstands.unique hvalue]

theorem checkLimit_of_run {site : Site} {limit? : Option Limit} {u : Unit}
    (h : (checkLimit site limit? value).run find = .ok u) (limit : Limit)
    (hlimit : limit? = some limit) : limit.holds value = true := by
  subst hlimit
  cases hholds : limit.holds value with
  | true => rfl
  | false =>
    simp only [checkLimit, hholds] at h
    cases h

theorem refuses_of_run_checkAge {site : Site} {since : Version} {u : Unit}
    (h : (Inquiry.ofExcept (p.checkAge site since)).run find = .ok u) :
    p.refuses since = false := by
  cases hrefuses : p.refuses since with
  | false => rfl
  | true =>
    rw [Profile.checkAge, hrefuses] at h
    cases h

/-- All that can have happened where a rule finds no fault: there is no entry and none is required,
or there is one with a value that is within the limit and not too new. -/
inductive Found (find : ObjectId → Option Object) (p : Profile) (c : String) (header : Dict)
    (rule : Rule) : Option Entry → Prop
  | none : rule.isRequired p header = false → Found find p c header rule none
  | some {entry : Entry} : (valueIfAny ⟨c, rule.key⟩ (rule.isRequired p header) entry.stored).run
        find = .ok (some entry.value) →
      (∀ limit, rule.limit? = some limit → limit.holds entry.value = true) →
      p.refuses rule.introduced = false → Found find p c header rule (some entry)

theorem found_of_run {found? : Option Entry} (h : (rule.check p c header).run find = .ok found?) :
    rule.Found find p c header found? := by
  have absent (h : (if rule.isRequired p header then Inquiry.fail (.missingEntry ⟨c, rule.key⟩)
      else return (none : Option Entry)).run find = .ok found?) :
      rule.Found find p c header found? := by
    cases hrequired : rule.isRequired p header with
    | true => rw [hrequired] at h; cases h
    | false => rw [hrequired] at h; cases h; exact .none hrequired
  simp only [check] at h
  cases hget : Dict.get? header (Text.Utf8.encode rule.key) with
  | none => rw [hget] at h; exact absent h
  | some stored =>
    rw [hget] at h
    obtain ⟨value?, hvalue, h⟩ := exists_of_run_bind h
    cases value? with
    | none => exact absent h
    | some value =>
      obtain ⟨_, -, h⟩ := exists_of_run_bind h
      obtain ⟨_, hwithin, h⟩ := exists_of_run_bind h
      obtain ⟨_, hage, h⟩ := exists_of_run_bind h
      cases h
      exact .some hvalue (checkLimit_of_run hwithin) (refuses_of_run_checkAge hage)

/-- A rule looks for the value first. -/
theorem check_covers {β : Type} {P : β → Prop} {y : Inquiry β}
    (hget : Dict.get? header (Text.Utf8.encode rule.key) = some stored)
    (h : Covers find (fun _ => P)
      (valueIfAny ⟨c, rule.key⟩ (rule.isRequired p header) stored) y) :
    Covers find (fun _ => P) (rule.check p c header) y := by
  simp only [check, hget]
  exact h.then_left fun _ _ _ _ hb _ => hb

end Rule

/-! ## Entries -/

theorem Sheet.check_covers {y : Inquiry Unit} {sheet : Sheet} {clause : Clause}
    (hclause : clause ∈ sheet.clauses)
    (h : Covers find Eq (clause.check p enter sheet.container header) y) :
    Covers find Eq (sheet.check p enter header) y :=
  .forM_left hclause h

/-- A value is judged only where the walk is not refused to go on. -/
theorem deeper_covers {α : Type} {R : Unit → α → Prop} {levels : Nat} {trail : Trail} {site : Site}
    {entry : Entry} {schema : Schema} {y : Inquiry α}
    (h : ∀ less, levels = less + 1 →
      Covers find R (judge p (deeper p less (trail.push entry.stored)) schema entry.value) y) :
    Covers find R (deeper p levels trail site entry schema) y := by
  cases levels with
  | zero => exact .of_error rfl y
  | succ less =>
    rw [deeper]
    split
    · exact .of_error rfl y
    · exact h less rfl

/-- Below the limit a value is judged, unless the walk would come by its id again. -/
theorem deeper_of_not_revisits {levels : Nat} {trail : Trail} {site : Site} {entry : Entry}
    {schema : Schema} (h : trail.revisits entry.stored = false) :
    deeper p (levels + 1) trail site entry schema =
      judge p (deeper p levels (trail.push entry.stored)) schema entry.value := by
  rw [deeper, h]
  rfl

theorem deeper_start (levels : Nat) (site : Site) (entry : Entry) (schema : Schema) :
    deeper p (levels + 1) .start site entry schema =
      judge p (deeper p levels (Trail.start.push entry.stored)) schema entry.value := by
  have hrevisits : Trail.start.revisits entry.stored = false := by
    cases entry.stored <;> rfl
  exact deeper_of_not_revisits hrevisits

variable {rule : Rule} {schema : Schema} {hint : Hint} {maxDepth : Nat} {inner : Dict}

/-- A clause that is kept admits the value that stands under its key. -/
theorem Clause.admits_of_run_enter {u : Unit}
    (h : ((Clause.enter rule schema).check p enter c header).run find = .ok u)
    (hget : Dict.get? header (Text.Utf8.encode rule.key) = some stored)
    (hstands : Stands find stored value) (hnull : value ≠ .null) :
    rule.shape.admits value.kind = true := by
  obtain ⟨found?, hrun, -⟩ := exists_of_run_bind h
  have hreports := Rule.reports_of_run hrun
  rw [Rule.eq_of_run hrun hget hstands hnull] at hreports
  exact hreports.2.2

/-- The value of an entry is judged by the caller as it is where it is entered. -/
theorem Clause.enter_covers_externalObject
    (hget : Dict.get? header (Text.Utf8.encode rule.key) = some stored)
    (hstands : Stands find stored (.stream inner)) (hkind : schema.kind = .stream)
    (henter : ∀ site, Covers find Eq (enter ⟨c, rule.key⟩ ⟨stored, .stream inner⟩ schema)
      (deeper p maxDepth .start site ⟨stored, .stream inner⟩ (.external hint))) :
    Covers find Eq ((Clause.enter rule schema).check p enter c header)
      (externalObject p maxDepth hint stored) := by
  have hnull : Object.stream inner ≠ .null := by simp
  have hvalue := valueIfAny_covers hstands hnull ⟨c, rule.key⟩ ⟨"caller", "XObject"⟩
    (rule.isRequired p header) true
  refine (Rule.check_covers hget (hvalue.mono fun _ _ _ h => h.2)).bind ?_
  rintro found? _ hrun rfl
  rw [Rule.eq_of_run hrun hget hstands hnull]
  simpa only [Object.kind, hkind, if_true] using henter _

theorem Clause.enter_covers_resourceDictionary
    (hget : Dict.get? header (Text.Utf8.encode rule.key) = some stored)
    (hstands : Stands find stored (.dictionary inner)) (hkind : schema.kind = .dictionary)
    (henter : ∀ site, Covers find Eq (enter ⟨c, rule.key⟩ ⟨stored, .dictionary inner⟩ schema)
      (deeper p maxDepth .start site ⟨stored, .dictionary inner⟩ .resources)) :
    Covers find Eq ((Clause.enter rule schema).check p enter c header)
      (resourceDictionary p maxDepth stored) := by
  have hnull : Object.dictionary inner ≠ .null := by simp
  have hvalue := valueIfAny_covers_valueOf hstands hnull ⟨c, rule.key⟩ ⟨"caller", "Resources"⟩
    (rule.isRequired p header)
  refine (Rule.check_covers hget (hvalue.mono fun _ _ _ h => h.2)).bind ?_
  rintro found? _ hrun rfl
  rw [Rule.eq_of_run hrun hget hstands hnull]
  simpa only [Object.kind, hkind, if_true] using henter _

theorem judgeMember_covers {member : Bytes × Object}
    (hstands : Stands find member.2 (.stream inner))
    (henter : ∀ site site', Covers find Eq
      (enter site ⟨member.2, .stream inner⟩ (.external .any))
      (deeper p maxDepth .start site' ⟨member.2, .stream inner⟩ (.external .any))) :
    Covers find Eq (judgeMember enter member) (externalObject p maxDepth .any member.2) := by
  refine (valueIfAny_covers hstands (by simp) _ _ _ _).bind ?_
  rintro _ _ _ ⟨rfl, rfl⟩
  exact henter _ _

/-! ## Masks -/

/-- Whichever container the faults are put to, a rule finds the same entry. -/
theorem Rule.check_covers_check (c c' : String) (rule : Rule) :
    Covers find Eq (rule.check p c header) (rule.check p c' header) := by
  have heases : rule.Eases (fun _ => True) p p c c' header rule :=
    .refl p header rule (.inr fun _ => trivial)
  exact (Rule.check_agree heases).covers

theorem checkClause_covers (he : Enter.AgreeUpTo (fun _ => True) enter enter') (c c' : String)
    {clause : Clause} (htimely : ∀ rule ∈ clause.allRules, rule.isTimely = true) :
    Covers find Eq (clause.check p enter c header) (clause.check p enter' c' header) :=
  ((Profile.Precedes.refl p).checkClause he (.inr fun _ => trivial) header htimely).covers

theorem checkClauses_covers (he : Enter.AgreeUpTo (fun _ => True) enter enter') (c c' : String)
    {clauses : List Clause}
    (htimely : ∀ rule ∈ clauses.flatMap Clause.allRules, rule.isTimely = true) :
    Covers find Eq (clauses.forM (Clause.check p enter c header))
      (clauses.forM (Clause.check p enter' c' header)) :=
  ((Profile.Precedes.refl p).checkClauses he (.inr fun _ => trivial) header htimely).covers

/-- The tag of an image. -/
def Grammar.imageTag (demand : Demand) : Rule :=
  Rule.demanded demand "Subtype" .name |> .limited (.oneOf ["Image"])

/-- The value of the tag, or its absence in relaxed mode. -/
def TaggedAsImage (p : Profile) (found? : Option Entry) : Prop :=
  found? = none ∧ p.mode = .relaxed ∨
    ∃ entry, found? = some entry ∧ entry.value = .name (Text.Utf8.encode "Image")

theorem taggedAsImage_of_run {demand : Demand}
    (hdemand : p.mode = .strict → demand.holds p header = true) {found? : Option Entry}
    (h : ((Grammar.imageTag demand).check p c header).run find = .ok found?) :
    TaggedAsImage p found? := by
  have hreports := Rule.reports_of_run h
  cases Rule.found_of_run h with
  | none hnot =>
    refine .inl ⟨rfl, ?_⟩
    cases hmode : p.mode with
    | relaxed => rfl
    | strict =>
      have hrequired : (Grammar.imageTag demand).isRequired p header = true := by
        rw [Rule.isRequired, Bool.and_eq_true]
        exact ⟨p.covers_v1_0, hdemand hmode⟩
      rw [hnot] at hrequired
      cases hrequired
  | @some entry _ hwithin _ =>
    obtain ⟨-, -, hadmits⟩ := hreports
    obtain ⟨spelling, hspelling⟩ := Object.eq_name_of_kind (of_decide_eq_true hadmits)
    have hword := hwithin (.oneOf ["Image"]) rfl
    rw [hspelling] at hword
    have heq : Text.Utf8.encode "Image" = spelling := by simpa [Limit.holds] using hword
    exact .inr ⟨entry, rfl, by rw [hspelling, heq]⟩

theorem settle_of_taggedAsImage {found? : Option Entry} (h : TaggedAsImage p found?) :
    settle p .image header (.ofSubtype (found?.bind (·.value.nameText?))) = .done .image := by
  rcases h with ⟨rfl, hrelaxed⟩ | ⟨entry, rfl, hvalue⟩
  · simp [settle, Designation.ofSubtype, Designation.isUsable, Designation.infer, hrelaxed]
  · have hname : (some entry).bind (·.value.nameText?) = some "Image" := by
      simp only [Option.bind_some, hvalue]
      rfl
    rw [hname]
    rfl

theorem Grammar.imageTag_eases (p : Profile) (header : Dict) (demand : Demand) (c c' : String) :
    Rule.Eases (fun _ => True) p p c c' header (imageTag demand) externalSubtype where
  place := .inr fun _ => trivial
  key := rfl
  shape := rfl
  dates := .of_mode (.inr fun _ => trivial) rfl
  required := fun h => by simp [Rule.isRequired, externalSubtype, Rule.optional, Rule.demanded,
    Demand.holds] at h
  lifted := fun _ => .inr ⟨trivial, fun _ => trivial⟩
  limit := .inr ⟨rfl, fun _ => trivial⟩
  age := by
    have hage (site : Site) : p.checkAge site .v1_0 = .ok () := by
      rw [Profile.checkAge, p.refuses_v1_0]
      rfl
    change AgreeUpTo _ Eq (.ofExcept (p.checkAge _ .v1_0)) (.ofExcept (p.checkAge _ .v1_0))
    rw [hage, hage]
    exact .refl _

/-- The tags of a mask make it an image for a caller who expects one. -/
theorem imageTags_cover_designate {demand : Demand}
    (hdemand : p.mode = .strict → demand.holds p header = true) :
    Covers find (fun _ designation => designation = .image)
      ([Grammar.externalType, Grammar.imageTag demand].forM fun rule => do
        let _ ← rule.check p c header
        return)
      (designate p .image header) := by
  have htype : Covers find Eq (Grammar.externalType.check p c header)
      (Grammar.externalType.check p Grammar.external header) := Rule.check_covers_check _ _ _
  have hsubtype : Covers find Eq ((Grammar.imageTag demand).check p c header)
      (Grammar.externalSubtype.check p Grammar.external header) :=
    (Rule.check_agree (Grammar.imageTag_eases p header demand c Grammar.external)).covers
  refine Covers.bind (htype.then_left (S := fun _ _ => True) fun _ _ _ _ _ _ => trivial) ?_
  intro _ _ _ _
  -- the second tag, and after it nothing but what the external object settles on
  have htagged : Covers find (fun _ => TaggedAsImage p)
      ((Grammar.imageTag demand).check p c header >>= fun _ => Inquiry.done ())
      (Grammar.externalSubtype.check p Grammar.external header) :=
    hsubtype.then_left fun found? found?' _ hrun heq _ => heq ▸ taggedAsImage_of_run hdemand hrun
  refine htagged.bind fun _ found? _ hfound => ?_
  rw [settle_of_taggedAsImage hfound]
  exact .done_right fun _ => rfl

/-- Alternates that are empty may be entered. -/
theorem alternates_empty_covers_enter (c c' : String) {reason : Reason}
    (hempty : ∀ site stored, Stands find stored (.array []) →
      enter' site ⟨stored, .array []⟩ .alternates = .done ()) :
    Covers find Eq ((Clause.empty Grammar.alternates reason).check p enter c header)
      ((Clause.enter Grammar.alternates .alternates).check p enter' c' header) := by
  refine (Rule.check_covers_check c c' Grammar.alternates).bind ?_
  rintro found? _ hrun rfl
  cases found? with
  | none => exact .done_right fun _ => rfl
  | some entry =>
    obtain ⟨-, hstands, hadmits⟩ := Rule.reports_of_run hrun
    obtain ⟨stored, value⟩ := entry
    obtain ⟨items, rfl⟩ := Object.eq_array_of_kind (of_decide_eq_true hadmits)
    cases items with
    | nil =>
      simp only [Object.kind, Schema.kind, if_true, hempty _ stored hstands]
      exact .done_right fun _ => rfl
    | cons item items => exact .of_error rfl _

/-- A mask that is barred from being an image may be one. -/
theorem mask_barred_covers_enter (c c' : String) {site : Site} {reason : Reason}
    (hbarred : ∀ site' entry, entry.value.kind = .stream →
      ∃ fault, (enter site' entry (.barred site reason)).run find = .error fault) :
    Covers find Eq ((Clause.enter Grammar.mask (.barred site reason)).check p enter c header)
      ((Clause.enter Grammar.mask (.image .explicitMask)).check p enter' c' header) := by
  refine (Rule.check_covers_check c c' Grammar.mask).bind ?_
  rintro found? _ hrun rfl
  cases found? with
  | none => exact .done_right fun _ => rfl
  | some entry =>
    by_cases hkind : entry.value.kind = .stream
    · obtain ⟨fault, hfault⟩ := hbarred ⟨c, Grammar.mask.key⟩ entry hkind
      simp only [Schema.kind, hkind, if_true]
      exact .of_error hfault _
    · simp only [Schema.kind, hkind, if_false]
      exact .done_right fun _ => rfl

/-- Of an image that is judged as a mask the rest is judged the same as of a primary one, but that
it has no alternates, and an explicit mask no mask that is an image. -/
theorem image_covers_primary {use : ImageUse} (huse : use = .softMask ∨ use = .explicitMask)
    (he : Enter.AgreeUpTo (fun _ => True) enter enter')
    (hempty : ∀ site stored, Stands find stored (.array []) →
      enter' site ⟨stored, .array []⟩ .alternates = .done ())
    (hbarred : ∀ site entry site' reason, entry.value.kind = .stream →
      ∃ fault, (enter site entry (.barred site' reason)).run find = .error fault)
    (stencil : Bool) :
    Covers find Eq ((Grammar.image use stencil).check p enter header)
      ((Grammar.image .primary stencil).check p enter' header) := by
  have hsame {clauses : List Clause}
      (htimely : ∀ rule ∈ clauses.flatMap Clause.allRules, rule.isTimely = true) :
      Covers find Eq (clauses.forM (Clause.check p enter use.container header))
        (clauses.forM (Clause.check p enter' ImageUse.primary.container header)) :=
    checkClauses_covers he _ _ htimely
  have hnone (clauses : List Clause) :
      Covers find Eq (clauses.forM (Clause.check p enter use.container header))
        ([].forM (Clause.check p enter' ImageUse.primary.container header)) :=
    .done_right fun _ => rfl
  have hmask : Covers find Eq
      ((Grammar.maskClause use stencil).check p enter use.container header)
      ((Grammar.maskClause .primary stencil).check p enter' ImageUse.primary.container header) := by
    rcases huse with rfl | rfl
    · exact checkClause_covers he _ _ (by cases stencil <;> decide)
    · cases stencil with
      | true => exact checkClause_covers he _ _ (by decide)
      | false =>
        exact mask_barred_covers_enter _ _ fun site entry => hbarred site entry _ _
  have halternates : Covers find Eq
      ((Grammar.alternatesClause use).check p enter use.container header)
      ((Grammar.alternatesClause .primary).check p enter' ImageUse.primary.container header) := by
    rcases huse with rfl | rfl <;> exact alternates_empty_covers_enter _ _ hempty
  -- part by part of the sheet; what only a mask is checked for comes on top
  refine .forM_append (.forM_append (.forM_append (.forM_append (.forM_append (hnone _) ?_) ?_) ?_)
    (hnone _)) ?_
  · exact hsame (by cases stencil <;> decide)
  · exact hsame (by decide)
  · exact .forM_cons hmask (.forM_cons halternates (hsame (by decide)))
  · exact hsame (by decide)

/-- An image that is accepted as a mask is accepted by a caller who expects an image. -/
theorem judgeImage_covers_judgeExternal {use : ImageUse}
    (huse : use = .softMask ∨ use = .explicitMask)
    (he : Enter.AgreeUpTo (fun _ => True) enter enter')
    (hempty : ∀ site stored, Stands find stored (.array []) →
      enter' site ⟨stored, .array []⟩ .alternates = .done ())
    (hbarred : ∀ site entry site' reason, entry.value.kind = .stream →
      ∃ fault, (enter site entry (.barred site' reason)).run find = .error fault) :
    Covers find Eq (judgeImage p enter use header) (judgeExternal p enter' .image header) := by
  have htags : Covers find (fun _ designation => designation = .image)
      ((Grammar.imageTags use).forM fun rule => do
        let _ ← rule.check p use.container header
        return)
      (designate p .image header) := by
    rcases huse with rfl | rfl
    · exact imageTags_cover_designate fun hstrict => decide_eq_true hstrict
    · exact imageTags_cover_designate fun _ => rfl
  have hsize : Covers find Eq
      ([Rule.required "Width" .integer, Rule.required "Height" .integer].forM fun rule => do
        let _ ← rule.check p use.container header
        return)
      ((Grammar.imageHead .primary).check p header) := by
    refine .forM_cons ?_ (.forM_cons ?_ (.done_right fun _ => rfl))
    · exact (Rule.check_covers_check _ _ _).bind fun _ _ _ _ => .refl _
    · exact (Rule.check_covers_check _ _ _).bind fun _ _ _ _ => .refl _
  rw [judgeImage, RuleTable.check, Grammar.imageHead, forM_append_eq, bind_assoc]
  refine htags.bind ?_
  rintro _ designation _ rfl
  refine hsize.bind fun _ _ _ _ => ?_
  refine (Rule.check_covers_check _ _ Grammar.imageMask).bind ?_
  rintro mask? _ _ rfl
  exact image_covers_primary huse he hempty hbarred _

end PdfConformance

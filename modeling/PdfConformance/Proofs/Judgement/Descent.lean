import PdfConformance.Proofs.Judgement.Covering

/-! # What a walk comes to

Which sheets are applied to a value that is judged by a schema, and which values it leads to one
level deeper, told by the document alone: by the values that stand under keys. A walk that ends well
has applied all of the sheets and judged all of the values. -/

namespace PdfConformance

open Inquiry

/-- Where within a container a value is stored. -/
inductive Slot where
  | entry (key : Bytes)
  | item (index : Nat)
  deriving DecidableEq, Repr

/-- An entry under the key stands for a value other than null. -/
def Yields (find : ObjectId → Option Object) (header : Dict) (key : String) (value : Object) :
    Prop :=
  value ≠ .null ∧
    ∃ stored, Dict.get? header (Text.Utf8.encode key) = some stored ∧ Stands find stored value

/-- The table as a sheet, none of whose clauses asks for more than its rule. -/
def RuleTable.sheet (table : RuleTable) : Sheet := ⟨table.container, table.rules.map .obey⟩

namespace Grammar

/-- What is checked of an external object before it is known for an image or a form. -/
def externalTags : RuleTable := ⟨external, [externalType, externalSubtype]⟩

/-- What is checked of an image before it is known whether it is a stencil. -/
def imageTable (use : ImageUse) : RuleTable :=
  ⟨use.container, (imageHead use).rules ++ [imageMask]⟩

end Grammar

/-- A value that the clause has entered, one level deeper than a container with this header. -/
inductive Clause.Leads (find : ObjectId → Option Object) (header : Dict) :
    Clause → Slot → Schema → Object → Prop
  | enter {rule : Rule} {schema : Schema} {value : Object} :
      Yields find header rule.key value → value.kind = schema.kind →
      Leads find header (.enter rule schema) (.entry (Text.Utf8.encode rule.key)) schema value
  | enterWith {rule companion : Rule} {container : String} {schema : Schema} {value : Object} :
      Yields find header rule.key value →
      Leads find header (.enterWith rule companion container schema)
        (.entry (Text.Utf8.encode rule.key)) schema value

/-- The sheets that are applied to a value judged by a schema, each with the entries that it is
applied to: those of the value, or those of a value that a clause has inspected in place. -/
inductive Schema.Applies (find : ObjectId → Option Object) (p : Profile) :
    Schema → Object → Sheet → Dict → Prop
  | tags {hint : Hint} {header : Dict} :
      Applies find p (.external hint) (.stream header) Grammar.externalTags.sheet header
  | form {hint : Hint} {header : Dict} : (designate p hint header).run find = .ok .form →
      Applies find p (.external hint) (.stream header) Grammar.form header
  | designated {hint : Hint} {header inner : Dict} {sheet : Sheet} :
      (designate p hint header).run find = .ok .image →
      Applies find p (.image .primary) (.stream header) sheet inner →
      Applies find p (.external hint) (.stream header) sheet inner
  | imageTable {use : ImageUse} {header : Dict} :
      Applies find p (.image use) (.stream header) (Grammar.imageTable use).sheet header
  | image {use : ImageUse} {header : Dict} {stencil : Bool} :
      (stencil = true ↔ Yields find header Grammar.imageMask.key (.boolean true)) →
      Applies find p (.image use) (.stream header) (Grammar.image use stencil) header
  | alternateImage {entries : Dict} :
      Applies find p .alternateImage (.dictionary entries) Grammar.alternateImage entries
  | resources {entries : Dict} :
      Applies find p .resources (.dictionary entries) Grammar.resources entries
  | piece {entries data : Dict} {key : Bytes} {stored : Object} : (key, stored) ∈ entries →
      Stands find stored (.dictionary data) →
      Applies find p .pieceInfo (.dictionary entries) Grammar.pieceData.sheet data
  | table {table : RuleTable} {entries : Dict} :
      Applies find p (.table table) (.dictionary entries) table.sheet entries
  | inspected {schema : Schema} {value part : Object} {sheet : Sheet} {header inner : Dict}
      {rule : Rule} {table : RuleTable} : Applies find p schema value sheet header →
      .inspect rule table ∈ sheet.clauses → Yields find header rule.key part →
      part.header? = some inner → Applies find p schema value table.sheet inner

/-- The values that a value judged by a schema leads to one level deeper. -/
inductive Schema.Leads (find : ObjectId → Option Object) (p : Profile) :
    Schema → Object → Slot → Schema → Object → Prop
  | clause {schema inner : Schema} {value part : Object} {sheet : Sheet} {header : Dict}
      {clause : Clause} {slot : Slot} : schema.Applies find p value sheet header →
      clause ∈ sheet.clauses → clause.Leads find header slot inner part →
      Leads find p schema value slot inner part
  | alternateStream {items : List Object} {index : Nat} {item : Object} {header : Dict} :
      items[index]? = some item → Stands find item (.stream header) →
      Leads find p .alternates (.array items) (.item index) (.image .alternate) (.stream header)
  | alternateDictionary {items : List Object} {index : Nat} {item : Object} {entries : Dict} :
      items[index]? = some item → Stands find item (.dictionary entries) →
      Leads find p .alternates (.array items) (.item index) .alternateImage (.dictionary entries)
  | member {entries header : Dict} {key : Bytes} {stored : Object} : (key, stored) ∈ entries →
      Stands find stored (.stream header) →
      Leads find p .externals (.dictionary entries) (.entry key) (.external .any) (.stream header)
  | prepress {version : Bytes} {stored : Object} {table : RuleTable} {entries : Dict} :
      Grammar.prepressTable? (Text.Utf8.decodeLossy version) = some table →
      Stands find stored (.dictionary entries) →
      Leads find p .prepress (.dictionary [(version, stored)]) (.entry version) (.table table)
        (.dictionary entries)

variable {find : ObjectId → Option Object} {p : Profile} {enter : Enter} {c : String}
  {header : Dict} {stored value part : Object}

/-! ## Rules -/

namespace Rule

variable {rule : Rule} {entry : Entry}

theorem yields_of_run (h : (rule.check p c header).run find = .ok (some entry)) :
    Yields find header rule.key entry.value := by
  cases found_of_run h with
  | some hvalue _ _ =>
    obtain ⟨hstands, hnull⟩ := stands_of_run_valueIfAny hvalue
    exact ⟨hnull, entry.stored, (reports_of_run h).1, hstands⟩

/-- A rule that finds no fault reports what its key yields. -/
theorem exists_of_yields {found? : Option Entry}
    (h : (rule.check p c header).run find = .ok found?)
    (hyields : Yields find header rule.key value) :
    ∃ entry, found? = some entry ∧ entry.value = value := by
  obtain ⟨hnull, stored, hget, hstands⟩ := hyields
  exact ⟨⟨stored, value⟩, eq_of_run h hget hstands hnull, rfl⟩

/-- A key that is newer than a strict document yields nothing. -/
theorem not_refuses_of_yields {found? : Option Entry}
    (h : (rule.check p c header).run find = .ok found?)
    (hyields : Yields find header rule.key value) : p.refuses rule.introduced = false := by
  obtain ⟨entry, rfl, -⟩ := exists_of_yields h hyields
  cases found_of_run h with
  | some _ _ hage => exact hage

end Rule

/-- What is read off the entry for `ImageMask` is whether the image is a stencil. -/
theorem stencil_iff_yields {mask? : Option Entry}
    (h : (Grammar.imageMask.check p c header).run find = .ok mask?) :
    mask?.any (·.value.isTrue) = true ↔
      Yields find header Grammar.imageMask.key (.boolean true) := by
  constructor
  · intro hstencil
    cases mask? with
    | none => cases hstencil
    | some entry =>
      have htrue : entry.value.isTrue = true := hstencil
      have hyields := Rule.yields_of_run h
      cases hvalue : entry.value with
      | boolean value =>
        rw [hvalue] at htrue hyields
        cases (htrue : value = true)
        exact hyields
      | _ => rw [hvalue] at htrue; cases htrue
  · intro hyields
    obtain ⟨entry, rfl, hvalue⟩ := Rule.exists_of_yields h hyields
    simp [hvalue, Object.isTrue]

/-! ## Sheets -/

theorem RuleTable.run_check_eq_ok {table : RuleTable} :
    (table.check p header).run find = .ok () ↔
      ∀ rule ∈ table.rules, ∃ found?, (rule.check p table.container header).run find =
        .ok found? := by
  rw [RuleTable.check, run_forM_eq_ok]
  refine forall₂_congr fun rule _ => ⟨fun h => ?_, ?_⟩
  · obtain ⟨found?, hrun, -⟩ := exists_of_run_bind h
    exact ⟨found?, hrun⟩
  · rintro ⟨found?, hrun⟩
    rw [run_bind_of_run hrun]
    rfl

theorem RuleTable.rules_sheet (table : RuleTable) : table.sheet.rules = table.rules := by
  simp [Sheet.rules, RuleTable.sheet, List.flatMap_map, Clause.rules]

theorem RuleTable.sheet_check (table : RuleTable) (enter : Enter) (header : Dict) :
    table.sheet.check p enter header = table.check p header :=
  List.forM_map

/-- A clause that is kept has held each entry to its rule. -/
theorem Clause.exists_run_of_mem_rules {clause : Clause} {rule : Rule}
    (h : (clause.check p enter c header).run find = .ok ()) (hrule : rule ∈ clause.rules) :
    ∃ found?, (rule.check p c header).run find = .ok found? := by
  have first {α : Type} {x : Inquiry α} {f : α → Inquiry Unit}
      (h : (x >>= f).run find = .ok ()) : ∃ a, x.run find = .ok a := by
    obtain ⟨a, hrun, -⟩ := exists_of_run_bind h
    exact ⟨a, hrun⟩
  have second {a b : Rule} {f : Option Entry → Option Entry → Inquiry Unit}
      (h : (do f (← a.check p c header) (← b.check p c header) : Inquiry Unit).run find = .ok ())
      (hrule : rule ∈ [a, b]) : ∃ found?, (rule.check p c header).run find = .ok found? := by
    obtain ⟨found?, hrun, hrest⟩ := exists_of_run_bind h
    rcases List.mem_cons.mp hrule with rfl | hrule
    · exact ⟨found?, hrun⟩
    · rw [List.mem_singleton.mp hrule]
      exact first hrest
  cases clause with
  | enterWith _ _ _ _ => exact second h hrule
  | exclude _ _ => exact second h hrule
  | never _ _ => cases hrule
  | _ =>
    rw [List.mem_singleton.mp hrule]
    exact first h

theorem Sheet.exists_run_of_mem_rules {sheet : Sheet} {rule : Rule}
    (h : (sheet.check p enter header).run find = .ok ()) (hrule : rule ∈ sheet.rules) :
    ∃ found?, (rule.check p sheet.container header).run find = .ok found? := by
  obtain ⟨clause, hclause, hrule⟩ := List.mem_flatMap.mp hrule
  exact Clause.exists_run_of_mem_rules (run_forM_eq_ok.mp h clause hclause) hrule

/-- A clause that is kept has judged what it leads to. -/
theorem Clause.Leads.run {clause : Clause} {slot : Slot} {schema : Schema}
    (h : clause.Leads find header slot schema part)
    (hrun : (clause.check p enter c header).run find = .ok ()) :
    ∃ site entry, entry.value = part ∧ (enter site entry schema).run find = .ok () := by
  cases h with
  | enter hyields hkind =>
    obtain ⟨found?, hcheck, hrun⟩ := exists_of_run_bind hrun
    obtain ⟨entry, rfl, rfl⟩ := Rule.exists_of_yields hcheck hyields
    simp only [hkind, if_true] at hrun
    exact ⟨_, entry, rfl, hrun⟩
  | enterWith hyields =>
    obtain ⟨found?, hcheck, hrun⟩ := exists_of_run_bind hrun
    obtain ⟨companion?, -, hrun⟩ := exists_of_run_bind hrun
    obtain ⟨entry, rfl, rfl⟩ := Rule.exists_of_yields hcheck hyields
    cases companion? with
    | none => cases hrun
    | some _ => exact ⟨_, entry, rfl, hrun⟩

/-- A table that a clause inspects is checked on the entries of the value. -/
theorem Clause.run_of_inspect {rule : Rule} {table : RuleTable} {inner : Dict}
    (h : ((Clause.inspect rule table).check p enter c header).run find = .ok ())
    (hyields : Yields find header rule.key part) (hinner : part.header? = some inner) :
    (table.check p inner).run find = .ok () := by
  obtain ⟨found?, hcheck, hrun⟩ := exists_of_run_bind h
  obtain ⟨entry, rfl, rfl⟩ := Rule.exists_of_yields hcheck hyields
  simpa only [Option.bind_some, hinner] using hrun

/-! ## Judgements -/

variable {schema : Schema} {sheet : Sheet} {inner : Dict}

/-- A value that is accepted has been held to every sheet that applies. -/
theorem Schema.Applies.run (h : schema.Applies find p value sheet inner)
    (hrun : (judge p enter schema value).run find = .ok ()) :
    (sheet.check p enter inner).run find = .ok () := by
  induction h with
  | tags =>
    obtain ⟨_, hdesignate, -⟩ := exists_of_run_bind hrun
    obtain ⟨type?, htype, hdesignate⟩ := exists_of_run_bind hdesignate
    obtain ⟨subtype?, hsubtype, -⟩ := exists_of_run_bind hdesignate
    rw [RuleTable.sheet_check, RuleTable.run_check_eq_ok]
    intro rule hrule
    simp only [Grammar.externalTags, List.mem_cons, List.not_mem_nil, or_false] at hrule
    rcases hrule with rfl | rfl
    · exact ⟨type?, htype⟩
    · exact ⟨subtype?, hsubtype⟩
  | form hform =>
    obtain ⟨designation, hdesignate, hrun⟩ := exists_of_run_bind hrun
    cases hform.symm.trans hdesignate
    exact hrun
  | designated himage _ ih =>
    obtain ⟨designation, hdesignate, hrun⟩ := exists_of_run_bind hrun
    cases himage.symm.trans hdesignate
    exact ih hrun
  | imageTable =>
    obtain ⟨_, hhead, hrun⟩ := exists_of_run_bind hrun
    obtain ⟨mask?, hmask, -⟩ := exists_of_run_bind hrun
    rw [RuleTable.sheet_check, RuleTable.run_check_eq_ok]
    intro rule hrule
    rcases List.mem_append.mp hrule with hrule | hrule
    · exact RuleTable.run_check_eq_ok.mp hhead rule hrule
    · rw [List.mem_singleton.mp hrule]
      exact ⟨mask?, hmask⟩
  | @image use header stencil hstencil =>
    obtain ⟨_, -, hrun⟩ := exists_of_run_bind hrun
    obtain ⟨mask?, hmask, hrun⟩ := exists_of_run_bind hrun
    have heq : mask?.any (·.value.isTrue) = stencil :=
      Bool.eq_iff_iff.mpr ((stencil_iff_yields hmask).trans hstencil.symm)
    rw [heq] at hrun
    exact hrun
  | alternateImage => exact hrun
  | resources => exact hrun
  | piece hmem hstands =>
    have hpiece := run_forM_eq_ok.mp hrun _ hmem
    obtain ⟨value, hvalue, hpiece⟩ := exists_of_run_bind hpiece
    cases valueOf_of_run hstands hvalue
    rw [RuleTable.sheet_check]
    exact hpiece
  | table =>
    rw [RuleTable.sheet_check]
    exact hrun
  | inspected _ hclause hyields hinner ih =>
    rw [RuleTable.sheet_check]
    exact Clause.run_of_inspect (run_forM_eq_ok.mp (ih hrun) _ hclause) hyields hinner

/-- An external object that is an image leads to what the image leads to. -/
theorem Schema.Leads.designated {hint : Hint} {slot : Slot} {inner : Schema}
    (himage : (designate p hint header).run find = .ok .image)
    (h : (Schema.image .primary).Leads find p (.stream header) slot inner part) :
    (Schema.external hint).Leads find p (.stream header) slot inner part := by
  cases h with
  | clause happlies hclause hleads => exact .clause (.designated himage happlies) hclause hleads

/-- A value that is accepted has had judged what it leads to. -/
theorem Schema.Leads.run {slot : Slot} {inner : Schema}
    (h : schema.Leads find p value slot inner part)
    (hrun : (judge p enter schema value).run find = .ok ()) :
    ∃ site entry, entry.value = part ∧ (enter site entry inner).run find = .ok () := by
  cases h with
  | clause happlies hclause hleads =>
    exact hleads.run (run_forM_eq_ok.mp (happlies.run hrun) _ hclause)
  | alternateStream hitem hstands =>
    have hround := run_forM_eq_ok.mp hrun _ (List.mem_of_getElem? hitem)
    obtain ⟨value?, hvalue, hround⟩ := exists_of_run_bind hround
    cases valueIfAny_of_run hstands (by simp) hvalue
    exact ⟨_, _, rfl, hround⟩
  | alternateDictionary hitem hstands =>
    have hround := run_forM_eq_ok.mp hrun _ (List.mem_of_getElem? hitem)
    obtain ⟨value?, hvalue, hround⟩ := exists_of_run_bind hround
    cases valueIfAny_of_run hstands (by simp) hvalue
    exact ⟨_, _, rfl, hround⟩
  | member hmem hstands =>
    have hround := run_forM_eq_ok.mp hrun _ hmem
    obtain ⟨value?, hvalue, hround⟩ := exists_of_run_bind hround
    cases valueIfAny_of_run hstands (by simp) hvalue
    exact ⟨_, _, rfl, hround⟩
  | prepress htable hstands =>
    simp only [judge, judgePrepress, htable] at hrun
    obtain ⟨value, hvalue, hrun⟩ := exists_of_run_bind hrun
    cases valueOf_of_run hstands hvalue
    exact ⟨_, _, rfl, hrun⟩

/-- A value that is accepted one level deeper has been judged, with a level less to go. -/
theorem run_of_deeper {levels : Nat} {trail : Trail} {site : Site} {entry : Entry}
    (h : (deeper p levels trail site entry schema).run find = .ok ()) :
    ∃ less, levels = less + 1 ∧
      (judge p (deeper p less (trail.push entry.stored)) schema entry.value).run find = .ok () := by
  cases levels with
  | zero => cases h
  | succ less =>
    rw [deeper] at h
    split at h
    · cases h
    · exact ⟨less, rfl, h⟩

/-- What an accepted value leads to has been accepted, with a level less to go. -/
theorem Schema.Leads.run_deeper {slot : Slot} {inner : Schema} {levels : Nat} {trail : Trail}
    (h : schema.Leads find p value slot inner part)
    (hrun : (judge p (deeper p levels trail) schema value).run find = .ok ()) :
    ∃ less trail', levels = less + 1 ∧
      (judge p (deeper p less trail') inner part).run find = .ok () := by
  obtain ⟨site, entry, rfl, henter⟩ := h.run hrun
  obtain ⟨less, hlevels, hinner⟩ := run_of_deeper henter
  exact ⟨less, _, hlevels, hinner⟩

end PdfConformance

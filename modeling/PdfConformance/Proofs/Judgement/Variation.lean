import PdfConformance.Proofs.Judgement.Likeness
import PdfConformance.Proofs.Object.Entries
import PdfConformance.Proofs.Question

/-! # An external object with one entry changed

The same object under two headers is judged in the same document, and by the same rules, so that
whether the verdicts correspond comes down to the checks of its own entries: what the object leads
to is entered in the same way. `Designation.Binds` tells the sheets that hold those entries to
rules. -/

namespace PdfConformance

open Inquiry

variable {p : Profile} {enter : Enter} {header header' : Dict} {hint : Hint} {c : String}

namespace Designation

/-- What the check of the tag has found, by its text. -/
def declared (subtype? : Option Entry) : Designation :=
  .ofSubtype (subtype?.bind (·.value.nameText?))

/-- The sheets that hold the entries of an external object to rules once it is designated. -/
inductive Binds (find : ObjectId → Option Object) (header : Dict) : Designation → Sheet → Prop
  | form : Binds find header .form Grammar.form
  | imageTable : Binds find header .image (Grammar.imageTable .primary).sheet
  | image {stencil : Bool} :
      (stencil = true ↔ Yields find header Grammar.imageMask.key (.boolean true)) →
      Binds find header .image (Grammar.image .primary stencil)

/-- The keys that forms and primary images have rules for. -/
def ownKeys : List String :=
  (Grammar.form.rules ++ (Grammar.imageTable .primary).sheet.rules ++
    (Grammar.image .primary false).rules ++ (Grammar.image .primary true).rules).map Rule.key

theorem Binds.key_mem {find : ObjectId → Option Object} {designation : Designation} {sheet : Sheet}
    {rule : Rule} (h : designation.Binds find header sheet) (hrule : rule ∈ sheet.rules) :
    rule.key ∈ ownKeys := by
  refine List.mem_map_of_mem ?_
  cases h with
  | @image stencil _ => cases stencil <;> simp [hrule]
  | _ => simp [hrule]

/-- Of the header only the bounding box tells what an object is taken for, and only where the caller
does not. -/
theorem infer_eq_of_sameBeside {key : Bytes} (h : Dict.SameBeside key header header')
    (hkey : key = Text.Utf8.encode "BBox" → hint ≠ .any) :
    infer header' hint = infer header hint := by
  cases hint with
  | any =>
    have hne : Text.Utf8.encode "BBox" ≠ key := fun heq => hkey heq.symm rfl
    simp only [infer, h.has_eq hne]
  | form => rfl
  | image => rfl

end Designation

/-- A check regards nothing of a container but the entry and whether it is required. -/
theorem Rule.check_congr {rule : Rule}
    (hget : Dict.get? header' (Text.Utf8.encode rule.key) =
      Dict.get? header (Text.Utf8.encode rule.key))
    (hrequired : rule.isRequired p header' = rule.isRequired p header) :
    rule.check p c header' = rule.check p c header := by
  unfold check
  rw [hrequired, hget]

/-- Checks of other entries stay the same. -/
theorem Dict.SameBeside.check_eq {key : Bytes} (h : Dict.SameBeside key header header')
    (hfilters : Likeness.SameFilters header header') {rule : Rule}
    (hkey : Text.Utf8.encode rule.key ≠ key) :
    rule.check p c header' = rule.check p c header := by
  have hdemand : Likeness.SameDemand p header header' rule := .of_filters hfilters p rule
  exact Rule.check_congr (h _ hkey) hdemand.isRequired_eq

/-- A clause regards nothing of a container but what its rules do. -/
theorem Clause.check_congr {clause : Clause}
    (h : ∀ rule ∈ clause.rules, rule.check p c header' = rule.check p c header) :
    clause.check p enter c header' = clause.check p enter c header := by
  cases clause with
  | enterWith rule companion _ _ | exclude rule companion =>
    simp only [check, h rule (by simp [rules]), h companion (by simp [rules])]
  | never _ _ => rfl
  | _ => simp only [check, h _ (List.mem_singleton.mpr rfl)]

theorem Clause.forM_check_congr {clauses : List Clause}
    (h : ∀ rule ∈ clauses.flatMap Clause.rules, rule.check p c header' = rule.check p c header) :
    clauses.forM (Clause.check p enter c header') = clauses.forM (Clause.check p enter c header) := by
  induction clauses with
  | nil => rfl
  | cons clause clauses ih =>
    rw [List.flatMap_cons] at h
    have hfirst : clause.check p enter c header' = clause.check p enter c header :=
      check_congr fun rule hrule => h rule (List.mem_append_left _ hrule)
    have hrest := ih fun rule hrule => h rule (List.mem_append_right _ hrule)
    change (clause.check p enter c header' >>= fun _ => _) = clause.check p enter c header >>= _
    rw [hfirst, hrest]

namespace Likeness

variable {l : Likeness}

/-- One document, in which a fault corresponds to itself and to those it turns into. -/
def sameDocument (find : ObjectId → Option Object) (turns : Fault → Fault → Prop)
    (excused : Fault → Prop) : Likeness where
  find
  find' := find
  alike := Eq
  arranged := Eq
  fault := fun fault fault' => fault' = fault ∨ turns fault fault'
  excused
  paced := False
  unexcused := False.elim

/-- One document, in which no fault turns into another and none is excused. -/
def identical (find : ObjectId → Option Object) : Likeness :=
  sameDocument find (fun _ _ => False) fun _ => False

theorem Verdicts.eq_of_identical {α : Type} {find : ObjectId → Option Object}
    {verdict verdict' : Except Fault α} (h : (identical find).Verdicts Eq verdict verdict') :
    verdict' = verdict := by
  cases h with
  | ok hresult => rw [hresult]
  | error hfault => rw [hfault.resolve_right id]
  | excused hexcused => exact hexcused.elim

/-- Both inquiries are into one document, where a fault corresponds to itself. -/
structure Local (l : Likeness) : Prop where
  find_eq : l.find' = l.find
  fault_refl : ∀ fault, l.fault fault fault
  unpaced : ¬ l.paced

theorem sameDocument_local (find : ObjectId → Option Object) (turns : Fault → Fault → Prop)
    (excused : Fault → Prop) : (sameDocument find turns excused).Local :=
  ⟨rfl, fun _ => .inl rfl, id⟩

namespace Local

theorem of_run_eq {α : Type} {x y : Inquiry α} (hl : l.Local) (h : y.run l.find = x.run l.find) :
    l.Mirrors Eq x y := by
  refine ⟨?_, fun hpaced => absurd hpaced hl.unpaced⟩
  rw [hl.find_eq, h]
  cases x.run l.find with
  | ok a => exact .ok rfl
  | error fault => exact .error (hl.fault_refl fault)

theorem refl {α : Type} (hl : l.Local) (x : Inquiry α) : l.Mirrors Eq x x := hl.of_run_eq rfl

/-- What a clause comes to depends on the header by way of its rules. -/
theorem checkClause (hl : l.Local) {clause : Clause}
    (h : ∀ rule ∈ clause.rules, l.Mirrors Eq (rule.check p c header) (rule.check p c header')) :
    l.Mirrors Eq (clause.check p enter c header) (clause.check p enter c header') := by
  cases clause with
  | enterWith first second _ _ | exclude first second =>
    apply (h first (by simp [Clause.rules])).bind_eq
    intro _
    apply (h second (by simp [Clause.rules])).bind_eq
    intro _
    exact hl.refl _
  | never _ _ => exact hl.refl _
  | _ =>
    apply (h _ (List.mem_singleton.mpr rfl)).bind_eq
    intro _
    exact hl.refl _

theorem checkSheet (hl : l.Local) {sheet : Sheet}
    (h : ∀ rule ∈ sheet.rules, l.Mirrors Eq (rule.check p sheet.container header)
      (rule.check p sheet.container header')) :
    l.Mirrors Eq (sheet.check p enter header) (sheet.check p enter header') := by
  apply Mirrors.forM_same
  intro clause hclause
  apply hl.checkClause
  intro rule hrule
  exact h rule (List.mem_flatMap.mpr ⟨clause, hclause, hrule⟩)

theorem checkTable (hl : l.Local) {table : RuleTable}
    (h : ∀ rule ∈ table.rules, l.Mirrors Eq (rule.check p table.container header)
      (rule.check p table.container header')) :
    l.Mirrors Eq (table.check p header) (table.check p header') := by
  apply Mirrors.forM_same
  intro rule hrule
  apply (h rule hrule).bind_eq
  intro _
  exact hl.refl _

theorem judgeImage (hl : l.Local)
    (h : ∀ sheet, Designation.image.Binds l.find header sheet → ∀ rule ∈ sheet.rules,
      l.Mirrors Eq (rule.check p sheet.container header) (rule.check p sheet.container header')) :
    l.Mirrors Eq (judgeImage p enter .primary header) (judgeImage p enter .primary header') := by
  have htable {rule : Rule} (hrule : rule ∈ (Grammar.imageTable .primary).rules) :
      l.Mirrors Eq (rule.check p ImageUse.primary.container header)
        (rule.check p ImageUse.primary.container header') :=
    h _ .imageTable rule (by rwa [RuleTable.rules_sheet])
  apply Mirrors.bind_eq
  · exact hl.checkTable fun rule hrule => htable (List.mem_append_left _ hrule)
  intro _
  apply (htable (List.mem_append_right _ (List.mem_singleton.mpr rfl))).bind_run
  rintro mask? _ hrun - rfl
  exact hl.checkSheet (h _ (.image (stencil_iff_yields hrun)))

/-- The designations are the same if the checks of both tags correspond, and the object is taken for
the same where it lacks a usable one. -/
theorem designate (hl : l.Local)
    (htype : l.Mirrors Eq (Grammar.externalType.check p Grammar.external header)
      (Grammar.externalType.check p Grammar.external header'))
    (hsubtype : l.Mirrors Eq (Grammar.externalSubtype.check p Grammar.external header)
      (Grammar.externalSubtype.check p Grammar.external header'))
    (hinfer : ∀ subtype?,
      (Grammar.externalSubtype.check p Grammar.external header).run l.find = .ok subtype? →
      (Designation.declared subtype?).isUsable = false → p.mode = .relaxed →
      Designation.infer header' hint = Designation.infer header hint) :
    l.Mirrors Eq (designate p hint header) (designate p hint header') := by
  apply htype.bind_eq
  intro _
  apply hsubtype.bind_run
  rintro subtype? _ hrun - rfl
  change l.Mirrors Eq (settle p hint header (.declared subtype?))
    (settle p hint header' (.declared subtype?))
  unfold settle
  split
  · rename_i hfree
    obtain ⟨husable, hrelaxed⟩ := Bool.and_eq_true_iff.mp hfree
    rw [hinfer subtype? hrun (by simpa using husable) (of_decide_eq_true hrelaxed)]
    exact hl.refl _
  · exact hl.refl _

theorem judgeExternal (hl : l.Local)
    (hdesignate : l.Mirrors Eq (PdfConformance.designate p hint header)
      (PdfConformance.designate p hint header'))
    (h : ∀ designation, (PdfConformance.designate p hint header).run l.find = .ok designation →
      ∀ sheet, designation.Binds l.find header sheet → ∀ rule ∈ sheet.rules,
        l.Mirrors Eq (rule.check p sheet.container header)
          (rule.check p sheet.container header')) :
    l.Mirrors Eq (judgeExternal p enter hint header) (judgeExternal p enter hint header') := by
  apply hdesignate.bind_run
  rintro designation _ hrun - rfl
  cases designation with
  | form => exact hl.checkSheet (h _ hrun _ .form)
  | image => exact hl.judgeImage (h _ hrun)
  | _ => exact hl.refl _

end Local

end Likeness

/-! ## Verdicts -/

namespace Question

variable {doc : Document} {maxDepth : Nat}

/-- A stream that is given as it is is judged on the first level, if there is one. -/
theorem outcome_stream (doc : Document) (p : Profile) (maxDepth : Nat) (hint : Hint)
    (header : Dict) :
    (external hint).outcome doc p maxDepth none (.stream header) = match maxDepth with
      | 0 => .error (.endless ⟨"caller", "XObject"⟩ none 0 .depth)
      | levels + 1 => (judgeExternal p (deeper p levels ⟨[], 1⟩) hint header).run doc.get? := by
  cases maxDepth with
  | zero => rfl
  | succ levels => rfl

/-- The verdicts on two streams correspond if what they are designated as does, and the checks of
their own entries do. -/
theorem verdicts_stream {l : Likeness} (hl : l.Local) (hfind : l.find = doc.get?)
    (hdesignate : l.Mirrors Eq (designate p hint header) (designate p hint header'))
    (h : ∀ designation, (designate p hint header).run l.find = .ok designation →
      ∀ sheet, designation.Binds l.find header sheet → ∀ rule ∈ sheet.rules,
        l.Mirrors Eq (rule.check p sheet.container header)
          (rule.check p sheet.container header')) :
    l.Verdicts Eq ((external hint).outcome doc p maxDepth none (.stream header))
      ((external hint).outcome doc p maxDepth none (.stream header')) := by
  rw [outcome_stream, outcome_stream]
  cases maxDepth with
  | zero => exact .error (hl.fault_refl _)
  | succ levels =>
    have hmirrors : l.Mirrors Eq (judgeExternal p (deeper p levels ⟨[], 1⟩) hint header)
        (judgeExternal p (deeper p levels ⟨[], 1⟩) hint header') := hl.judgeExternal hdesignate h
    simpa only [hl.find_eq, hfind] using hmirrors.verdicts

/-- If what they are designated as is the same, and so are the checks of their own entries, the
verdicts are. -/
theorem outcome_stream_congr
    (hdesignate : (designate p hint header').run doc.get? = (designate p hint header).run doc.get?)
    (h : ∀ designation, (designate p hint header).run doc.get? = .ok designation →
      ∀ sheet, designation.Binds doc.get? header sheet → ∀ rule ∈ sheet.rules,
        (rule.check p sheet.container header').run doc.get? =
          (rule.check p sheet.container header).run doc.get?) :
    (external hint).outcome doc p maxDepth none (.stream header') =
      (external hint).outcome doc p maxDepth none (.stream header) := by
  have hl : (Likeness.identical doc.get?).Local := Likeness.sameDocument_local _ _ _
  have hverdicts : (Likeness.identical doc.get?).Verdicts Eq
      ((external hint).outcome doc p maxDepth none (.stream header))
      ((external hint).outcome doc p maxDepth none (.stream header')) := by
    refine verdicts_stream hl rfl (hl.of_run_eq hdesignate) ?_
    intro designation hrun sheet hbinds rule hrule
    exact hl.of_run_eq (h designation hrun sheet hbinds rule hrule)
  exact hverdicts.eq_of_identical

end Question

end PdfConformance

import PdfConformance.Proofs.Question

/-! # A later version never makes an object worse

`outcome_later`: an object is judged the same when its document declares a later version, unless the
declared one is reported to be too old for an entry, or is the oldest and the name of an object is
missed, which it alone demands. No other entry comes to be demanded with a version. -/

namespace PdfConformance

open Inquiry

namespace Version

theorem le_trans {u v w : Version} (huv : u ≤ v) (hvw : v ≤ w) : u ≤ w := Nat.le_trans huv hvw

theorem eq_v1_0_of_le {v : Version} (h : v ≤ v1_0) : v = v1_0 := by
  cases v with
  | v1_0 => rfl
  | _ => exact absurd h (by decide)

theorem ne_v1_0_of_le {v : Version} (h : v1_1 ≤ v) : v ≠ v1_0 := by
  rintro rfl
  exact absurd h (by decide)

theorem le_total (v w : Version) : v ≤ w ∨ w ≤ v := Nat.le_total v.rank w.rank

end Version

variable {v v' : Version} {mode : Mode}

theorem Profile.covers_later (hle : v ≤ v') {since : Version}
    (h : covers ⟨v, mode⟩ since = true) : covers ⟨v', mode⟩ since = true :=
  decide_eq_true (Version.le_trans (of_decide_eq_true h) hle)

/-- The faults of a document that may be gone when it declares a later version. -/
def Fault.IsOutgrown (v : Version) (mode : Mode) : Fault → Prop
  | tooNew _ _ _ => mode = .strict
  | missingEntry site | dangling site _ => v = .v1_0 ∧ site.key = Grammar.resourceName.key
  | _ => False

/-- What a later version demands the earlier does too. What only the earlier one demands is the name
of an object, and it is the oldest. -/
theorem Rule.isRequired_later (hle : v ≤ v') {rule : Rule} (htimely : rule.isTimely = true)
    (header : Dict) :
    (rule.isRequired ⟨v', mode⟩ header = true → rule.isRequired ⟨v, mode⟩ header = true) ∧
    (rule.isRequired ⟨v, mode⟩ header = true → rule.isRequired ⟨v', mode⟩ header = true ∨
      v = .v1_0 ∧ rule.key = Grammar.resourceName.key) := by
  obtain ⟨key, shape, demand, introduced, limit?⟩ := rule
  cases demand with
  | never => simp [isRequired, Demand.holds]
  | inOldestVersion =>
    have hkey : key = Grammar.resourceName.key := of_decide_eq_true htimely
    simp only [isRequired, Demand.holds, Bool.and_eq_true, decide_eq_true_eq]
    constructor
    · rintro ⟨hcovers, rfl⟩
      have hold : v = .v1_0 := Version.eq_v1_0_of_le hle
      rw [hold]
      exact ⟨hcovers, rfl⟩
    · rintro ⟨-, hold⟩
      exact .inr ⟨hold, hkey⟩
  | _ =>
    -- demanded in every version: the two profiles tell the demand alike
    have hfirst : introduced = .v1_0 := of_decide_eq_true htimely
    subst hfirst
    simp only [isRequired, Profile.covers_v1_0, Bool.true_and]
    exact ⟨id, .inl⟩

theorem Rule.eases_later (hle : v ≤ v') {rule : Rule} (htimely : rule.isTimely = true)
    (container : String) (header : Dict) :
    Eases (Fault.IsOutgrown v mode) ⟨v, mode⟩ ⟨v', mode⟩ container container header rule rule where
  place := .refl _
  key := rfl
  shape := rfl
  dates := .of_mode (.refl _) rfl
  required := (isRequired_later hle htimely header).1
  lifted := fun h => ((isRequired_later hle htimely header).2 h).imp_right fun hname =>
    ⟨hname, fun _ => hname⟩
  limit := .inl rfl
  age := by
    simp only [Profile.checkAge]
    by_cases hrefuses : Profile.refuses ⟨v, mode⟩ rule.introduced = true
    · rw [if_pos hrefuses]
      simp only [Profile.refuses, Bool.and_eq_true, decide_eq_true_eq] at hrefuses
      exact .excused _ hrefuses.1
    · rw [if_neg hrefuses, if_neg fun hlater => hrefuses ?_]
      · exact .refl _
      · simp only [Profile.refuses, Bool.and_eq_true, Bool.not_eq_true',
          decide_eq_true_eq] at hlater ⊢
        refine ⟨hlater.1, Bool.eq_false_iff.mpr fun hcovers => ?_⟩
        rw [Profile.covers_later hle hcovers] at hlater
        cases hlater.2

theorem precedes_later (hle : v ≤ v') (mode : Mode) :
    Profile.Precedes (Fault.IsOutgrown v mode) ⟨v, mode⟩ ⟨v', mode⟩ where
  check := by
    intro c c' header rule hc htimely
    rcases hc with rfl | hall
    · exact Rule.check_agree (Rule.eases_later hle htimely c header)
    · exact absurd (hall .cancelled) id
  mode := .inl rfl

theorem outcome_eq_or_isOutgrown (hle : v ≤ v') (mode : Mode) (question : Question) (doc : Document)
    (maxDepth : Nat) (patience? : Option Nat) (object : Object) :
    question.outcome doc ⟨v', mode⟩ maxDepth patience? object =
        question.outcome doc ⟨v, mode⟩ maxDepth patience? object ∨
      ∃ fault, question.outcome doc ⟨v, mode⟩ maxDepth patience? object = .error fault ∧
        fault.IsOutgrown v mode :=
  (question.agree_of_enter ((precedes_later hle mode).deeper maxDepth .start)
    object).verdict_eq doc.get? patience?

/-- A later version leads to the same verdict, unless an entry is too new for the declared one or
the oldest misses the name of an object. What is accepted under some version is accepted under all
later ones, and in relaxed mode all versions but the oldest lead to the same verdict. -/
theorem outcome_later (question : Question) (doc : Document) (maxDepth : Nat)
    (patience? : Option Nat) (object : Object) :
    (∀ mode v v', v ≤ v' →
      (∀ site since declared, question.outcome doc ⟨v, mode⟩ maxDepth patience? object ≠
        .error (.tooNew site since declared)) →
      (v = .v1_0 → ∀ site : Site, site.key = "Name" →
        question.outcome doc ⟨v, mode⟩ maxDepth patience? object ≠ .error (.missingEntry site) ∧
        ∀ id, question.outcome doc ⟨v, mode⟩ maxDepth patience? object ≠
          .error (.dangling site id)) →
      question.outcome doc ⟨v', mode⟩ maxDepth patience? object =
        question.outcome doc ⟨v, mode⟩ maxDepth patience? object) ∧
    (∀ mode v v', v ≤ v' → question.outcome doc ⟨v, mode⟩ maxDepth patience? object = .ok () →
      question.outcome doc ⟨v', mode⟩ maxDepth patience? object = .ok ()) ∧
    (∀ v v', .v1_1 ≤ v → .v1_1 ≤ v' →
      question.outcome doc ⟨v', .relaxed⟩ maxDepth patience? object =
        question.outcome doc ⟨v, .relaxed⟩ maxDepth patience? object) := by
  have later {mode : Mode} {v v' : Version} (hle : v ≤ v') :=
    outcome_eq_or_isOutgrown hle mode question doc maxDepth patience? object
  refine ⟨?_, ?_, ?_⟩
  · intro mode v v' hle hnew hname
    rcases later hle with heq | ⟨fault, hverdict, hgone⟩
    · exact heq
    · cases fault with
      | tooNew site since declared => exact absurd hverdict (hnew site since declared)
      | missingEntry site =>
        obtain ⟨hold, hkey⟩ := hgone
        exact absurd hverdict (hname hold site hkey).1
      | dangling site id =>
        obtain ⟨hold, hkey⟩ := hgone
        exact absurd hverdict ((hname hold site hkey).2 id)
      | _ => cases hgone
  · intro mode v v' hle hok
    rcases later hle with heq | ⟨fault, hverdict, -⟩
    · exact heq.trans hok
    · rw [hok] at hverdict
      cases hverdict
  · -- in relaxed mode nothing is outgrown but the oldest version
    have relaxed {v v' : Version} (hv : .v1_1 ≤ v) (hle : v ≤ v') :
        question.outcome doc ⟨v', .relaxed⟩ maxDepth patience? object =
          question.outcome doc ⟨v, .relaxed⟩ maxDepth patience? object := by
      rcases later hle with heq | ⟨fault, -, hgone⟩
      · exact heq
      · have hnot := Version.ne_v1_0_of_le hv
        cases fault with
        | tooNew site since declared => cases hgone
        | missingEntry site => exact absurd hgone.1 hnot
        | dangling site id => exact absurd hgone.1 hnot
        | _ => cases hgone
    intro v v' hv hv'
    rcases Version.le_total v v' with hle | hle
    · exact relaxed hv hle
    · exact (relaxed hv' hle).symm

/-- A stencil of one sample under its name. -/
def namedStencil : Object := .stream [
  (Text.Utf8.encode "Subtype", .name (Text.Utf8.encode "Image")),
  (Text.Utf8.encode "Width", .integer 1),
  (Text.Utf8.encode "Height", .integer 1),
  (Text.Utf8.encode "ImageMask", .boolean true),
  (Text.Utf8.encode "Name", .name (Text.Utf8.encode "I"))]

theorem outcome_later_namedStencil :
    (Question.external .image).outcome ⟨"1.0", [], .empty⟩ ⟨.v1_0, .strict⟩ 1 none namedStencil =
        .ok () ∧
      (Question.external .image).outcome ⟨"1.0", [], .empty⟩ ⟨.v2_0, .strict⟩ 1 none namedStencil =
        .ok () := by
  have hold : (Question.external .image).outcome ⟨"1.0", [], .empty⟩ ⟨.v1_0, .strict⟩ 1 none
      namedStencil = .ok () := by rfl
  have hnot (fault : Fault) : (Question.external .image).outcome ⟨"1.0", [], .empty⟩
      ⟨.v1_0, .strict⟩ 1 none namedStencil ≠ .error fault := by
    rw [hold]
    simp
  have hlater := (outcome_later (.external .image) ⟨"1.0", [], .empty⟩ 1 none namedStencil).1
    .strict .v1_0 .v2_0 (by decide) (fun _ _ _ => hnot _) fun _ _ _ => ⟨hnot _, fun _ => hnot _⟩
  exact ⟨hold, hlater.trans hold⟩

end PdfConformance

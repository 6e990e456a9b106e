import PdfConformance.Proofs.Question

/-! # Relaxed mode tolerates, and changes nothing else

`outcome_relaxed`: what strict mode reports is what relaxed mode reports, unless strict mode reports
a fault of one of the sorts in `Fault.isTolerable`. The walk through a document is never redirected
before the first such fault. -/

namespace PdfConformance

namespace Timestamp

theorem body?_relaxed {text rest : List Char} (h : body? .strict text = some rest) :
    body? .relaxed text = some rest := by
  unfold body? at h ⊢
  split at h
  · exact h
  · cases h

theorem closes_relaxed {rest : List Char} (h : closes .strict rest = true) :
    closes .relaxed rest = true := by
  have hrest : rest = ['\''] := by simpa [closes] using h
  rw [hrest]
  rfl

theorem readMinutes?_relaxed {west : Bool} {hours : Nat} {tail : List Char} {offset : Offset}
    (h : readMinutes? .strict west hours tail = some offset) :
    readMinutes? .relaxed west hours tail = some offset := by
  unfold readMinutes? at h ⊢
  split at h
  · exact h
  · exact h
  · rename_i rest hne
    obtain ⟨⟨minutes, after⟩, htwo, hread⟩ := Option.bind_eq_some_iff.mp h
    have hread : (if closes .strict after then Offset.ofParts? west hours minutes else none) =
      some offset := hread
    refine Option.bind_eq_some_iff.mpr ⟨(minutes, after), htwo, ?_⟩
    cases hc : closes .strict after with
    | true => simpa [hc, closes_relaxed hc] using hread
    | false => simp [hc] at hread
  · cases h

theorem readHours?_relaxed {west : Bool} {tail : List Char} {offset : Offset}
    (h : readHours? .strict west tail = some offset) :
    readHours? .relaxed west tail = some offset := by
  obtain ⟨⟨hours, rest⟩, htwo, hminutes⟩ := Option.bind_eq_some_iff.mp h
  exact Option.bind_eq_some_iff.mpr ⟨(hours, rest), htwo, readMinutes?_relaxed hminutes⟩

theorem readOffset?_relaxed {tail : List Char} {offset : Offset}
    (h : readOffset? .strict tail = some offset) : readOffset? .relaxed tail = some offset := by
  unfold readOffset? at h ⊢
  split at h
  · exact h
  · rename_i rest
    cases hempty : rest.isEmpty with
    | true => simpa [hempty] using h
    | false => simp [hempty] at h
  · exact readHours?_relaxed h
  · exact readHours?_relaxed h
  · cases h

theorem readText?_relaxed {text : List Char} {t : Timestamp}
    (h : readText? .strict text = some t) : readText? .relaxed text = some t := by
  obtain ⟨body, hbody, h⟩ := Option.bind_eq_some_iff.mp h
  obtain ⟨_, hguard, h⟩ := Option.bind_eq_some_iff.mp h
  obtain ⟨⟨date, clock⟩, hfields, h⟩ := Option.bind_eq_some_iff.mp h
  obtain ⟨offset, hoffset, h⟩ := Option.bind_eq_some_iff.mp h
  refine Option.bind_eq_some_iff.mpr ⟨body, body?_relaxed hbody, ?_⟩
  refine Option.bind_eq_some_iff.mpr ⟨_, hguard, ?_⟩
  refine Option.bind_eq_some_iff.mpr ⟨(date, clock), hfields, ?_⟩
  exact Option.bind_eq_some_iff.mpr ⟨offset, readOffset?_relaxed hoffset, h⟩

/-- A date string that strict mode reads means the same in relaxed mode. -/
theorem read?_relaxed {raw : Bytes} {t : Timestamp} (h : read? .strict raw = some t) :
    read? .relaxed raw = some t := by
  obtain ⟨chars, hchars, h⟩ := Option.bind_eq_some_iff.mp h
  exact Option.bind_eq_some_iff.mpr ⟨chars, hchars, readText?_relaxed h⟩

end Timestamp

open Inquiry

/-- The faults of strict mode that relaxed mode may pass over. -/
def Fault.isTolerable : Fault → Bool
  | missingEntry _ | tooNew _ _ _ | unknownSubtype _ _ | dangling _ _ => true
  | constraint _ reason => reason = .invalidDate
  | _ => false

variable {version : Version}

theorem Demand.holds_strict {header : Dict} {demand : Demand}
    (h : demand.holds ⟨version, .relaxed⟩ header = true) :
    demand.holds ⟨version, .strict⟩ header = true := by
  cases demand with
  | unlessColoured =>
    simp only [holds, Bool.and_eq_true] at h
    simpa [holds] using h.1
  | inStrictMode => rfl
  | _ => exact h

theorem Rule.isRequired_strict {header : Dict} {rule : Rule}
    (h : rule.isRequired ⟨version, .relaxed⟩ header = true) :
    rule.isRequired ⟨version, .strict⟩ header = true := by
  simp only [isRequired, Bool.and_eq_true] at h ⊢
  exact ⟨h.1, Demand.holds_strict h.2⟩

theorem Shape.datesAgree_relaxed (site : Site) :
    DatesAgree (Fault.isTolerable ·) ⟨version, .strict⟩ ⟨version, .relaxed⟩ site site := by
  intro content
  refine .require rfl fun h => ?_
  obtain ⟨t, ht⟩ := Option.isSome_iff_exists.mp h
  exact Option.isSome_iff_exists.mpr ⟨t, Timestamp.read?_relaxed ht⟩

theorem Rule.eases_relaxed (container : String) (header : Dict) (rule : Rule) :
    Eases (Fault.isTolerable ·) ⟨version, .strict⟩ ⟨version, .relaxed⟩ container container header
      rule rule where
  place := .refl _
  key := rfl
  shape := rfl
  dates := Shape.datesAgree_relaxed _
  required := isRequired_strict
  lifted := fun _ => .inr ⟨rfl, fun _ => rfl⟩
  limit := .inl rfl
  age := by
    simp only [Profile.checkAge, Profile.refuses_relaxed]
    split
    · exact .excused _ rfl
    · exact .refl _

theorem Fault.eq_of_interchangeable {c c' : String}
    (h : Interchangeable (Fault.isTolerable ·) c c') : c = c' := by
  rcases h with heq | hall
  · exact heq
  · cases hall .cancelled

theorem strict_precedes_relaxed (version : Version) :
    Profile.Precedes (Fault.isTolerable ·) ⟨version, .strict⟩ ⟨version, .relaxed⟩ where
  check := by
    intro c c' header rule hc _
    cases Fault.eq_of_interchangeable hc
    exact Rule.check_agree (Rule.eases_relaxed c header rule)
  mode := .inr ⟨rfl, rfl, fun _ => rfl⟩

/-- Relaxed mode reports what strict mode does, unless strict mode reports a tolerable fault. -/
theorem outcome_relaxed (question : Question) (doc : Document) (version : Version) (maxDepth : Nat)
    (patience? : Option Nat) (object : Object) :
    question.outcome doc ⟨version, .relaxed⟩ maxDepth patience? object =
        question.outcome doc ⟨version, .strict⟩ maxDepth patience? object ∨
      ∃ fault, question.outcome doc ⟨version, .strict⟩ maxDepth patience? object = .error fault ∧
        fault.isTolerable = true :=
  (question.agree_of_enter ((strict_precedes_relaxed version).deeper maxDepth .start)
    object).verdict_eq doc.get? patience?

end PdfConformance

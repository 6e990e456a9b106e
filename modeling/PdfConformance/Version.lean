import PdfConformance.Mode
import PdfConformance.Text.Blank

/-! # Versions of the format

The published versions, oldest first, and the profile a document is judged under: the version it
declares and the mode. An entry that is newer than the declared version is never required; where it
is present, `strict` refuses it. -/

namespace PdfConformance

inductive Version where
  | v1_0
  | v1_1
  | v1_2
  | v1_3
  | v1_4
  | v1_5
  | v1_6
  | v1_7
  | v2_0
  deriving DecidableEq, Repr

namespace Version

/-- The place in the order of publication. -/
def rank : Version → Nat
  | v1_0 => 0
  | v1_1 => 1
  | v1_2 => 2
  | v1_3 => 3
  | v1_4 => 4
  | v1_5 => 5
  | v1_6 => 6
  | v1_7 => 7
  | v2_0 => 8

instance : LE Version := ⟨fun a b => a.rank ≤ b.rank⟩

instance : DecidableLE Version := fun a b => inferInstanceAs (Decidable (a.rank ≤ b.rank))

def text : Version → String
  | v1_0 => "1.0"
  | v1_1 => "1.1"
  | v1_2 => "1.2"
  | v1_3 => "1.3"
  | v1_4 => "1.4"
  | v1_5 => "1.5"
  | v1_6 => "1.6"
  | v1_7 => "1.7"
  | v2_0 => "2.0"

def all : List Version := [v1_0, v1_1, v1_2, v1_3, v1_4, v1_5, v1_6, v1_7, v2_0]

/-- The version a header names, between blanks. The one of the year 2017 is also written `2`.
Of any other text the error keeps what stands between the blanks. -/
def ofText (header : String) : Except String Version :=
  let trimmed := String.ofList (Text.trim header.toList)
  match all.find? (fun v => v.text = trimmed) with
  | some v => .ok v
  | none => if trimmed = "2" then .ok v2_0 else .error trimmed

theorem ofText_text (v : Version) : ofText v.text = .ok v := by
  cases v <;> rfl

end Version

/-- What a document is judged under. -/
structure Profile where
  version : Version
  mode : Mode
  deriving DecidableEq, Repr

namespace Profile

/-- Entries introduced in `since` belong to the declared version. -/
def covers (p : Profile) (since : Version) : Bool := since ≤ p.version

/-- An entry introduced in `since` must not be present. -/
def refuses (p : Profile) (since : Version) : Bool := p.mode = .strict && !p.covers since

def ofHeader (header : String) (mode : Mode) : Except String Profile :=
  (Version.ofText header).map (⟨·, mode⟩)

/-- What has been there from the first version on belongs to every version. -/
theorem covers_v1_0 (p : Profile) : p.covers .v1_0 = true :=
  decide_eq_true (Nat.zero_le p.version.rank)

theorem refuses_v1_0 (p : Profile) : p.refuses .v1_0 = false := by simp [refuses, covers_v1_0]

theorem refuses_relaxed (version since : Version) : refuses ⟨version, .relaxed⟩ since = false := rfl

end Profile

end PdfConformance

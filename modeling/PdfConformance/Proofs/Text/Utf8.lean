import Mathlib.Tactic.Ring
import PdfConformance.Object

/-! # Text in ASCII

A sequence of several octets never yields an ASCII character, and neither does what is ill-formed:
`Pending.Wide` is what the narrowed ranges of the octets see to. So octets that are read as a text in
ASCII are the octets of that text. -/

namespace PdfConformance.Text.Utf8

namespace Pending

/-- The least number the sequence can come to. -/
def least (p : Pending) : Nat := (p.bits * 64 + (p.low.toNat - 0x80)) * 64 ^ (p.owed - 1)

/-- What all numbers the sequence can come to are less than. -/
def past (p : Pending) : Nat := (p.bits * 64 + (p.high.toNat - 0x80) + 1) * 64 ^ (p.owed - 1)

/-- The sequence can come to nothing but characters beyond ASCII. -/
structure Wide (p : Pending) : Prop where
  owed : 1 ≤ p.owed
  low : 0x80 ≤ p.low.toNat
  beyond : 0x80 ≤ p.least
  valid : p.past ≤ 0xD800 ∨ 0xE000 ≤ p.least ∧ p.past ≤ 0x110000

/-- Where any octet may follow, the numbers are those that begin with the bits. -/
theorem wide_of_bits {bits owed : Nat} (howed : 1 ≤ owed) (hbeyond : 0x80 ≤ bits * 64 ^ owed)
    (hvalid : (bits + 1) * 64 ^ owed ≤ 0xD800 ∨
      0xE000 ≤ bits * 64 ^ owed ∧ (bits + 1) * 64 ^ owed ≤ 0x110000) :
    (Pending.mk bits owed 0x80 0xBF).Wide := by
  obtain ⟨more, rfl⟩ : ∃ more, owed = more + 1 := ⟨owed - 1, by omega⟩
  have hleast : (Pending.mk bits (more + 1) 0x80 0xBF).least = bits * 64 ^ (more + 1) := by
    simp [least]
    ring
  have hpast : (Pending.mk bits (more + 1) 0x80 0xBF).past = (bits + 1) * 64 ^ (more + 1) := by
    simp [past]
    ring
  exact ⟨howed, Nat.le_refl 0x80, by omega, by omega⟩

/-- The bits with those of one more octet. -/
def bitsWith (p : Pending) (b : UInt8) : Nat := p.bits * 64 + (b.toNat - 0x80)

/-- What is left of the range that is narrowed to numbers with these bits. -/
theorem Wide.narrowed {p : Pending} (h : p.Wide) {b : UInt8} (hlow : p.low ≤ b)
    (hhigh : b ≤ p.high) :
    p.least ≤ p.bitsWith b * 64 ^ (p.owed - 1) ∧
      (p.bitsWith b + 1) * 64 ^ (p.owed - 1) ≤ p.past := by
  rw [UInt8.le_iff_toNat_le] at hlow hhigh
  have hge := h.low
  have hleast : p.bits * 64 + (p.low.toNat - 0x80) ≤ p.bitsWith b := by unfold bitsWith; omega
  have hpast : p.bitsWith b + 1 ≤ p.bits * 64 + (p.high.toNat - 0x80) + 1 := by
    unfold bitsWith
    omega
  exact ⟨Nat.mul_le_mul_right _ hleast, Nat.mul_le_mul_right _ hpast⟩

/-- A sequence that goes on stays among such characters. -/
theorem Wide.next {p : Pending} (h : p.Wide) (howed : ¬ p.owed ≤ 1) {b : UInt8} (hlow : p.low ≤ b)
    (hhigh : b ≤ p.high) : (Pending.mk (p.bitsWith b) (p.owed - 1) 0x80 0xBF).Wide := by
  obtain ⟨hleast, hpast⟩ := h.narrowed hlow hhigh
  have hbeyond := h.beyond
  have hvalid := h.valid
  exact wide_of_bits (by omega) (by omega) (by omega)

end Pending

/-- A piece that is no ASCII character. -/
def IsForeign (piece : Option Char) : Prop := 0x80 ≤ (piece.getD '\uFFFD').toNat

theorem isForeign_none : IsForeign none := by unfold IsForeign; decide

theorem toNat_ofNat {n : Nat} (h : n.isValidChar) : (Char.ofNat n).toNat = n := by
  unfold Char.ofNat
  rw [dif_pos h]
  rfl

theorem isForeign_ofNat {n : Nat} (hbeyond : 0x80 ≤ n)
    (hvalid : n < 0xD800 ∨ 0xE000 ≤ n ∧ n < 0x110000) : IsForeign (some (Char.ofNat n)) := by
  have hchar : n.isValidChar := by
    rcases hvalid with hlow | ⟨hhigh, hlt⟩
    · exact .inl hlow
    · exact .inr ⟨by omega, hlt⟩
  show 0x80 ≤ (Char.ofNat n).toNat
  rw [toNat_ofNat hchar]
  exact hbeyond

theorem piecesFrom_cons (state : Option Pending) (b : UInt8) (bytes : Bytes) :
    piecesFrom state (b :: bytes) = (step state b).1 ++ piecesFrom (step state b).2 bytes := by
  cases state <;> rfl

section Step

variable {p : Pending} {b : UInt8}

theorem step_last (hrange : p.low ≤ b ∧ b ≤ p.high) (howed : p.owed ≤ 1) :
    step (some p) b = ([some (Char.ofNat (p.bitsWith b))], none) := by
  unfold step
  simp only [if_pos hrange, if_pos howed]
  rfl

theorem step_next (hrange : p.low ≤ b ∧ b ≤ p.high) (howed : ¬ p.owed ≤ 1) :
    step (some p) b = ([], some ⟨p.bitsWith b, p.owed - 1, 0x80, 0xBF⟩) := by
  unfold step
  simp only [if_pos hrange, if_neg howed]
  rfl

theorem step_refused (hrange : ¬ (p.low ≤ b ∧ b ≤ p.high)) :
    step (some p) b = (none :: (start b).1, (start b).2) := by
  unfold step
  simp only [if_neg hrange]

end Step

theorem exists_isForeign_pending {p : Pending} (h : p.Wide) (bytes : Bytes) :
    ∃ piece ∈ piecesFrom (some p) bytes, IsForeign piece := by
  induction bytes generalizing p with
  | nil => exact ⟨none, by simp [piecesFrom], isForeign_none⟩
  | cons b bytes ih =>
    rw [piecesFrom_cons]
    by_cases hrange : p.low ≤ b ∧ b ≤ p.high
    · by_cases howed : p.owed ≤ 1
      · obtain ⟨hleast, hpast⟩ := h.narrowed hrange.1 hrange.2
        have hbeyond := h.beyond
        have hvalid := h.valid
        have hlast : 64 ^ (p.owed - 1) = 1 := by rw [Nat.sub_eq_zero_of_le howed, Nat.pow_zero]
        rw [hlast, Nat.mul_one] at hleast hpast
        rw [step_last hrange howed]
        exact ⟨_, List.mem_append_left _ List.mem_cons_self,
          isForeign_ofNat (by omega) (by omega)⟩
      · rw [step_next hrange howed, List.nil_append]
        exact ih (h.next howed hrange.1 hrange.2)
    · rw [step_refused hrange]
      exact ⟨none, List.mem_append_left _ List.mem_cons_self, isForeign_none⟩

/-- What an octet beyond ASCII begins is ill-formed or wide: the octets that begin sequences of two,
of three and of four, and among them those with a narrowed range. -/
theorem start_of_lt {b : UInt8} (h : 0x7F < b) :
    start b = ([none], none) ∨ ∃ p, start b = ([], some p) ∧ p.Wide := by
  have hnot : ¬ b ≤ 0x7F := by
    rw [UInt8.le_iff_toNat_le]
    rw [UInt8.lt_iff_toNat_lt] at h
    omega
  unfold start
  rw [if_neg hnot]
  simp only [UInt8.le_iff_toNat_le, ← UInt8.toNat_inj, UInt8.reduceToNat]
  split
  · exact .inr ⟨_, rfl, Pending.wide_of_bits (by omega) (by omega) (by omega)⟩
  split
  · exact .inr ⟨_, rfl, by decide, by decide, by decide, by decide⟩
  split
  · exact .inr ⟨_, rfl, by decide, by decide, by decide, by decide⟩
  split
  · exact .inr ⟨_, rfl, Pending.wide_of_bits (by omega) (by omega) (by omega)⟩
  split
  · exact .inr ⟨_, rfl, by decide, by decide, by decide, by decide⟩
  split
  · exact .inr ⟨_, rfl, by decide, by decide, by decide, by decide⟩
  split
  · exact .inr ⟨_, rfl, Pending.wide_of_bits (by omega) (by omega) (by omega)⟩
  · exact .inl rfl

theorem exists_isForeign_of_lt {b : UInt8} (h : 0x7F < b) (bytes : Bytes) :
    ∃ piece ∈ pieces (b :: bytes), IsForeign piece := by
  show ∃ piece ∈ (start b).1 ++ piecesFrom (start b).2 bytes, IsForeign piece
  rcases start_of_lt h with hstart | ⟨p, hstart, hwide⟩
  · rw [hstart]
    exact ⟨none, by simp, isForeign_none⟩
  · rw [hstart]
    exact exists_isForeign_pending hwide bytes

/-- No character of the text is beyond ASCII. -/
def isAscii (text : List Char) : Bool := text.all fun c => c.toNat < 0x80

theorem isAscii_iff {text : List Char} : isAscii text = true ↔ ∀ c ∈ text, c.toNat < 0x80 := by
  simp [isAscii]

theorem utf8EncodeChar_of_lt {c : Char} (h : c.toNat < 0x80) :
    String.utf8EncodeChar c = [UInt8.ofNat c.toNat] := by
  unfold String.utf8EncodeChar
  exact if_pos (by show c.toNat ≤ 0x7F; omega)

/-- A character that an octet yields by itself is written as this octet. -/
theorem utf8EncodeChar_ofNat {b : UInt8} (h : b ≤ 0x7F) :
    String.utf8EncodeChar (Char.ofNat b.toNat) = [b] := by
  have hlt : b.toNat ≤ 0x7F := UInt8.le_iff_toNat_le.mp h
  have hchar : (Char.ofNat b.toNat).toNat = b.toNat := toNat_ofNat (.inl (by omega))
  rw [utf8EncodeChar_of_lt (by omega), hchar, UInt8.ofNat_toNat]

theorem pieces_utf8EncodeChar_of_lt {c : Char} (h : c.toNat < 0x80) (bytes : Bytes) :
    pieces (String.utf8EncodeChar c ++ bytes) = some c :: pieces bytes := by
  have hoctet : (UInt8.ofNat c.toNat).toNat = c.toNat := by simp; omega
  have hascii : UInt8.ofNat c.toNat ≤ 0x7F := by
    rw [UInt8.le_iff_toNat_le, hoctet]
    exact Nat.le_of_lt_succ h
  rw [utf8EncodeChar_of_lt h, List.singleton_append, pieces_ascii_cons hascii, hoctet,
    Char.ofNat_toNat]

theorem pieces_encode {text : List Char} (h : ∀ c ∈ text, c.toNat < 0x80) :
    pieces (text.flatMap String.utf8EncodeChar) = text.map some := by
  induction text with
  | nil => rfl
  | cons c text ih =>
    rw [List.flatMap_cons, pieces_utf8EncodeChar_of_lt (h c List.mem_cons_self),
      ih fun d hd => h d (List.mem_cons_of_mem _ hd), List.map_cons]

theorem eq_encode_of_pieces {text : List Char} (h : ∀ c ∈ text, c.toNat < 0x80) {bytes : Bytes}
    (hpieces : (pieces bytes).map (·.getD '\uFFFD') = text) :
    bytes = text.flatMap String.utf8EncodeChar := by
  induction bytes generalizing text with
  | nil =>
    subst hpieces
    rfl
  | cons b bytes ih =>
    by_cases hascii : b ≤ 0x7F
    · rw [pieces_ascii_cons hascii] at hpieces
      subst hpieces
      rw [List.map_cons, List.flatMap_cons, Option.getD_some, utf8EncodeChar_ofNat hascii]
      exact congrArg (b :: ·) (ih (fun c hc => h c (List.mem_cons_of_mem _ hc)) rfl)
    · have hlt : 0x7F < b := by
        rw [UInt8.le_iff_toNat_le] at hascii
        rw [UInt8.lt_iff_toNat_lt]
        omega
      obtain ⟨piece, hpiece, hforeign⟩ := exists_isForeign_of_lt hlt bytes
      have hmem : piece.getD '\uFFFD' ∈ text := hpieces ▸ List.mem_map_of_mem hpiece
      have hnot := h _ hmem
      unfold IsForeign at hforeign
      omega

/-- Octets are read as a text in ASCII only if they are that text. -/
theorem decodeLossy_eq_iff {text : String} (hascii : isAscii text.toList = true) {bytes : Bytes} :
    decodeLossy bytes = text ↔ bytes = encode text := by
  have h := isAscii_iff.mp hascii
  unfold decodeLossy encode
  constructor
  · rintro rfl
    rw [String.toList_ofList] at h ⊢
    exact eq_encode_of_pieces h rfl
  · rintro rfl
    rw [pieces_encode h, List.map_map]
    simp

end PdfConformance.Text.Utf8

namespace PdfConformance

/-- A name that is read as a text in ASCII is spelt so. -/
theorem Object.eq_name_of_nameText? {value : Object} {text : String}
    (hascii : Text.Utf8.isAscii text.toList = true) (h : value.nameText? = some text) :
    value = .name (Text.Utf8.encode text) := by
  cases value with
  | name spelling =>
    have hdecode : Text.Utf8.decodeLossy spelling = text := Option.some.inj h
    rw [(Text.Utf8.decodeLossy_eq_iff hascii).mp hdecode]
  | _ => cases h

end PdfConformance

import PdfConformance.Proofs.Text.Utf8

/-! # Well-formed octets

`decode?_eq_some_iff`: octets are read as a text exactly if they are the octets of that text. A
character beyond ASCII has a first octet, and with it as many others are owed as the number of the
character has groups of six bits left; the ranges they must lie in are met by the numbers that have
this first octet, and by no others. -/

namespace PdfConformance.Text.Utf8

/-- The octet that holds the six bits of a number which others are left behind. -/
def octet (left n : Nat) : UInt8 := UInt8.ofNat (0x80 + n / 64 ^ left % 64)

/-- The last octets of a number, so many of them. -/
def trailing : (owed : Nat) → Nat → Bytes
  | 0, _ => []
  | left + 1, n => octet left n :: trailing left n

theorem toNat_octet (left n : Nat) : (octet left n).toNat = 0x80 + n / 64 ^ left % 64 := by
  have hlt : n / 64 ^ left % 64 < 64 := Nat.mod_lt _ (by omega)
  simp only [octet, UInt8.toNat_ofNat']
  omega

namespace Pending

/-- The range lies among the octets that go on with a sequence, and one of them is owed. -/
structure Ordinary (p : Pending) : Prop where
  owed : 1 ≤ p.owed
  low : 0x80 ≤ p.low.toNat
  some_octet : p.low.toNat ≤ p.high.toNat
  high : p.high.toNat ≤ 0xBF

/-- The sequence can come to the number. -/
def Admits (p : Pending) (n : Nat) : Prop :=
  p.bits * 64 + (p.low.toNat - 0x80) ≤ n / 64 ^ (p.owed - 1) ∧
    n / 64 ^ (p.owed - 1) ≤ p.bits * 64 + (p.high.toNat - 0x80)

variable {bits left n : Nat} {low high b : UInt8}

theorem admits_iff : (Pending.mk bits (left + 1) low high).Admits n ↔
    bits * 64 + (low.toNat - 0x80) ≤ n / 64 ^ left ∧
      n / 64 ^ left ≤ bits * 64 + (high.toNat - 0x80) := Iff.rfl

theorem bitsWith_eq (owed : Nat) :
    (Pending.mk bits owed low high).bitsWith b = bits * 64 + (b.toNat - 0x80) := rfl

/-- The next octet is that of the number. -/
theorem Admits.octet (h : (Pending.mk bits (left + 1) low high).Admits n)
    (hp : (Pending.mk bits (left + 1) low high).Ordinary) :
    (low ≤ octet left n ∧ octet left n ≤ high) ∧
      (Pending.mk bits (left + 1) low high).bitsWith (octet left n) = n / 64 ^ left := by
  obtain ⟨-, hlow, hsome, hhigh⟩ := hp
  dsimp only at hlow hsome hhigh
  rw [admits_iff] at h
  rw [bitsWith_eq, UInt8.le_iff_toNat_le, UInt8.le_iff_toNat_le, toNat_octet]
  generalize n / 64 ^ left = leading at *
  omega

/-- Any octet of the range is that of a number the sequence can come to. -/
theorem admits_of_range (hp : (Pending.mk bits (left + 1) low high).Ordinary)
    (hrange : low ≤ b ∧ b ≤ high)
    (hbits : (Pending.mk bits (left + 1) low high).bitsWith b = n / 64 ^ left) :
    (Pending.mk bits (left + 1) low high).Admits n ∧ b = Utf8.octet left n := by
  obtain ⟨-, hlow, hsome, hhigh⟩ := hp
  dsimp only at hlow hsome hhigh
  rw [bitsWith_eq] at hbits
  rw [UInt8.le_iff_toNat_le, UInt8.le_iff_toNat_le] at hrange
  rw [admits_iff, ← UInt8.toNat_inj, toNat_octet]
  generalize n / 64 ^ left = leading at *
  omega

theorem ordinary_of_any (bits left : Nat) :
    (Pending.mk bits (left + 1) 0x80 0xBF).Ordinary :=
  ⟨Nat.succ_pos left, Nat.le_refl 0x80, show 0x80 ≤ 0xBF by omega, Nat.le_refl 0xBF⟩

/-- Where any octet may follow, the numbers are those that begin with the bits. -/
theorem admits_any : (Pending.mk bits (left + 1) 0x80 0xBF).Admits n ↔
    n / 64 ^ (left + 1) = bits := by
  rw [admits_iff, Nat.pow_succ, ← Nat.div_div_eq_div_mul]
  simp only [UInt8.reduceToNat]
  omega

end Pending

/-! ## A sequence under way -/

section Sequence

variable {bits left n : Nat} {low high : UInt8}

/-- The octets of a number that the sequence can come to are read as its character. -/
theorem piecesFrom_trailing (hp : (Pending.mk bits (left + 1) low high).Ordinary)
    (h : (Pending.mk bits (left + 1) low high).Admits n) (bytes : Bytes) :
    piecesFrom (some ⟨bits, left + 1, low, high⟩) (trailing (left + 1) n ++ bytes) =
      some (Char.ofNat n) :: pieces bytes := by
  -- after the first octet any may follow: the range is narrowed once only
  induction left generalizing bits low high with
  | zero =>
    obtain ⟨hrange, hbits⟩ := h.octet hp
    rw [trailing, trailing, List.singleton_append, piecesFrom_cons,
      step_last hrange (Nat.le_refl 1), hbits, Nat.pow_zero, Nat.div_one]
    rfl
  | succ left ih =>
    obtain ⟨hrange, hbits⟩ := h.octet hp
    rw [trailing, List.cons_append, piecesFrom_cons, step_next hrange (by simp), hbits]
    exact ih (Pending.ordinary_of_any _ left) (Pending.admits_any.mpr rfl)

/-- Characters alone are read only if the next octet is in the range. -/
theorem exists_cons_of_piecesFrom {p : Pending} {bytes : Bytes} {chars : List Char}
    (h : piecesFrom (some p) bytes = chars.map some) :
    ∃ b rest, bytes = b :: rest ∧ p.low ≤ b ∧ b ≤ p.high := by
  cases bytes with
  | nil => cases chars <;> cases h
  | cons b rest =>
    by_cases hrange : p.low ≤ b ∧ b ≤ p.high
    · exact ⟨b, rest, rfl, hrange⟩
    · rw [piecesFrom_cons, step_refused hrange] at h
      cases chars <;> cases h

/-- What is read as characters begins with the octets of a number that the sequence can come to. -/
theorem exists_trailing_of_piecesFrom (hp : (Pending.mk bits (left + 1) low high).Ordinary)
    {bytes : Bytes} {chars : List Char}
    (h : piecesFrom (some ⟨bits, left + 1, low, high⟩) bytes = chars.map some) :
    ∃ n rest more, (Pending.mk bits (left + 1) low high).Admits n ∧
      bytes = trailing (left + 1) n ++ rest ∧ chars = Char.ofNat n :: more ∧
      pieces rest = more.map some := by
  induction left generalizing bits low high bytes with
  | zero =>
    obtain ⟨b, rest, rfl, hrange⟩ := exists_cons_of_piecesFrom h
    rw [piecesFrom_cons, step_last hrange (Nat.le_refl 1)] at h
    obtain ⟨c, more, rfl, hc, hrest⟩ := List.map_eq_cons_iff.mp h.symm
    obtain ⟨hadmitted, hoctet⟩ := Pending.admits_of_range hp hrange (Nat.div_one _).symm
    exact ⟨_, rest, more, hadmitted, congrArg (· :: rest) hoctet,
      congrArg (· :: more) (Option.some.inj hc), hrest.symm⟩
  | succ left ih =>
    obtain ⟨b, rest, rfl, hrange⟩ := exists_cons_of_piecesFrom h
    rw [piecesFrom_cons, step_next hrange (by simp)] at h
    obtain ⟨n, rest, more, hadmits, rfl, hmore⟩ := ih (Pending.ordinary_of_any _ left) h
    obtain ⟨hadmitted, rfl⟩ :=
      Pending.admits_of_range hp hrange (Pending.admits_any.mp hadmits).symm
    exact ⟨n, rest, more, hadmitted, rfl, hmore⟩

end Sequence

/-! ## The first octet -/

/-- What octets begin sequences of two, of three and of four, and what is owed then. -/
inductive Lead : UInt8 → Pending → Prop
  | two {b : UInt8} : 0xC2 ≤ b.toNat → b.toNat ≤ 0xDF → Lead b ⟨b.toNat - 0xC0, 1, 0x80, 0xBF⟩
  | firstThree {b : UInt8} : b.toNat = 0xE0 → Lead b ⟨0, 2, 0xA0, 0xBF⟩
  | surrogates {b : UInt8} : b.toNat = 0xED → Lead b ⟨0xD, 2, 0x80, 0x9F⟩
  | three {b : UInt8} : 0xE1 ≤ b.toNat → b.toNat ≤ 0xEF → b.toNat ≠ 0xED →
      Lead b ⟨b.toNat - 0xE0, 2, 0x80, 0xBF⟩
  | firstFour {b : UInt8} : b.toNat = 0xF0 → Lead b ⟨0, 3, 0x90, 0xBF⟩
  | lastFour {b : UInt8} : b.toNat = 0xF4 → Lead b ⟨4, 3, 0x80, 0x8F⟩
  | four {b : UInt8} : 0xF1 ≤ b.toNat → b.toNat ≤ 0xF3 → Lead b ⟨b.toNat - 0xF0, 3, 0x80, 0xBF⟩

theorem start_eq_some_iff {b : UInt8} {p : Pending} : start b = ([], some p) ↔ Lead b p := by
  unfold start
  simp only [UInt8.le_iff_toNat_le, ← UInt8.toNat_inj, UInt8.reduceToNat]
  repeat' split
  all_goals grind [Lead]

theorem utf8EncodeChar_of_two {n : Nat} (hbeyond : 0x80 ≤ n) (hlt : n < 0x800) :
    String.utf8EncodeChar (Char.ofNat n) = UInt8.ofNat (n / 64 + 0xC0) :: trailing 1 n := by
  have hchar : (Char.ofNat n).toNat = n := toNat_ofNat (.inl (by omega))
  unfold String.utf8EncodeChar
  simp only [Char.toNat_val, hchar]
  rw [if_neg (by omega), if_pos (by omega)]
  simp only [trailing, octet, List.cons.injEq, ← UInt8.toNat_inj, UInt8.toNat_ofNat', and_true]
  omega

theorem utf8EncodeChar_of_three {n : Nat} (hvalid : n.isValidChar) (hbeyond : 0x800 ≤ n)
    (hlt : n < 0x10000) : String.utf8EncodeChar (Char.ofNat n) =
      UInt8.ofNat (n / 4096 + 0xE0) :: trailing 2 n := by
  unfold String.utf8EncodeChar
  simp only [Char.toNat_val, toNat_ofNat hvalid]
  rw [if_neg (by omega), if_neg (by omega), if_pos (by omega)]
  simp only [trailing, octet, List.cons.injEq, ← UInt8.toNat_inj, UInt8.toNat_ofNat', and_true]
  omega

theorem utf8EncodeChar_of_four {n : Nat} (hvalid : n.isValidChar) (hbeyond : 0x10000 ≤ n) :
    String.utf8EncodeChar (Char.ofNat n) = UInt8.ofNat (n / 262144 + 0xF0) :: trailing 3 n := by
  have hlt : n < 0x110000 := by
    rcases hvalid with h | h <;> omega
  unfold String.utf8EncodeChar
  simp only [Char.toNat_val, toNat_ofNat hvalid]
  rw [if_neg (by omega), if_neg (by omega), if_neg (by omega)]
  simp only [trailing, octet, List.cons.injEq, ← UInt8.toNat_inj, UInt8.toNat_ofNat', and_true]
  omega

/-- The octet begins the sequences of the numbers that are admitted after it, all of which are those
of characters. -/
structure Begins (b : UInt8) (p : Pending) : Prop where
  ordinary : p.Ordinary
  valid : ∀ n, p.Admits n → n.isValidChar
  spells : ∀ n, p.Admits n → String.utf8EncodeChar (Char.ofNat n) = b :: trailing p.owed n

theorem begins_two {b : UInt8} {bits : Nat} (hb : b.toNat = bits + 0xC0) (hge : 2 ≤ bits)
    (hle : bits ≤ 0x1F) : Begins b ⟨bits, 1, 0x80, 0xBF⟩ := by
  have hbits {n : Nat} (h : (Pending.mk bits 1 0x80 0xBF).Admits n) : n / 64 = bits :=
    Pending.admits_any.mp h
  refine ⟨Pending.ordinary_of_any bits 0, fun n h => ?_, fun n h => ?_⟩
  · have := hbits h
    exact .inl (by omega)
  · have := hbits h
    rw [utf8EncodeChar_of_two (by omega) (by omega), this, ← hb, UInt8.ofNat_toNat]

section Range

variable {b low high : UInt8} {bits lo hi : Nat} (hlow : low.toNat = 0x80 + lo)
  (hhigh : high.toNat = 0x80 + hi)

include hlow hhigh

theorem Pending.admits_iff_of_range {left n : Nat} :
    (Pending.mk bits (left + 1) low high).Admits n ↔
      bits * 64 + lo ≤ n / 64 ^ left ∧ n / 64 ^ left ≤ bits * 64 + hi := by
  rw [admits_iff, hlow, hhigh, Nat.add_sub_cancel_left, Nat.add_sub_cancel_left]

theorem Pending.ordinary_of_range (hrange : lo ≤ hi ∧ hi ≤ 0x3F) (left : Nat) :
    (Pending.mk bits (left + 1) low high).Ordinary where
  owed := Nat.succ_pos left
  low := show 0x80 ≤ low.toNat by omega
  some_octet := show low.toNat ≤ high.toNat by omega
  high := show high.toNat ≤ 0xBF by omega

theorem begins_three (hrange : lo ≤ hi ∧ hi ≤ 0x3F) (hb : b.toNat = bits + 0xE0) (hle : bits ≤ 0xF)
    (hbeyond : 0x20 ≤ bits * 64 + lo)
    (hvalid : bits * 64 + hi < 0x360 ∨ 0x380 ≤ bits * 64 + lo) : Begins b ⟨bits, 2, low, high⟩ := by
  have hnext {n : Nat} (h : (Pending.mk bits 2 low high).Admits n) :
      (n.isValidChar ∧ 0x800 ≤ n ∧ n < 0x10000) ∧ n / 4096 = bits := by
    rw [Pending.admits_iff_of_range hlow hhigh] at h
    unfold Nat.isValidChar
    omega
  refine ⟨Pending.ordinary_of_range hlow hhigh hrange 1, fun n h => (hnext h).1.1, fun n h => ?_⟩
  obtain ⟨⟨hchar, hge, hlt⟩, hbits⟩ := hnext h
  rw [utf8EncodeChar_of_three hchar hge hlt, hbits, ← hb, UInt8.ofNat_toNat]

theorem begins_four (hrange : lo ≤ hi ∧ hi ≤ 0x3F) (hb : b.toNat = bits + 0xF0)
    (hbeyond : 0x10 ≤ bits * 64 + lo) (hvalid : bits * 64 + hi < 0x110) :
    Begins b ⟨bits, 3, low, high⟩ := by
  have hnext {n : Nat} (h : (Pending.mk bits 3 low high).Admits n) :
      (n.isValidChar ∧ 0x10000 ≤ n) ∧ n / 262144 = bits := by
    rw [Pending.admits_iff_of_range hlow hhigh] at h
    unfold Nat.isValidChar
    omega
  refine ⟨Pending.ordinary_of_range hlow hhigh hrange 2, fun n h => (hnext h).1.1, fun n h => ?_⟩
  obtain ⟨⟨hchar, hge⟩, hbits⟩ := hnext h
  rw [utf8EncodeChar_of_four hchar hge, hbits, ← hb, UInt8.ofNat_toNat]

end Range

/-- The ranges of the octets that may follow, as numbers of six bits. -/
theorem toNat_range : UInt8.toNat 0x80 = 0x80 + 0 ∧ UInt8.toNat 0x90 = 0x80 + 0x10 ∧
    UInt8.toNat 0xA0 = 0x80 + 0x20 ∧ UInt8.toNat 0x8F = 0x80 + 0x0F ∧
    UInt8.toNat 0x9F = 0x80 + 0x1F ∧ UInt8.toNat 0xBF = 0x80 + 0x3F := by decide

theorem Lead.begins {b : UInt8} {p : Pending} (h : Lead b p) : Begins b p := by
  obtain ⟨h80, h90, hA0, h8F, h9F, hBF⟩ := toNat_range
  cases h with
  | two hge hle => exact begins_two (by omega) (by omega) (by omega)
  | firstThree hb => exact begins_three hA0 hBF (by omega) hb (by omega) (by omega) (by omega)
  | surrogates hb => exact begins_three h80 h9F (by omega) hb (by omega) (by omega) (by omega)
  | three hge hle hne =>
    exact begins_three h80 hBF (by omega) (by omega) (by omega) (by omega) (by omega)
  | firstFour hb => exact begins_four h90 hBF (by omega) hb (by omega) (by omega)
  | lastFour hb => exact begins_four h80 h8F (by omega) hb (by omega) (by omega)
  | four hge hle => exact begins_four h80 hBF (by omega) (by omega) (by omega) (by omega)

/-- Every number of a character beyond ASCII is admitted after one of these octets. -/
theorem exists_lead {n : Nat} (hbeyond : 0x80 ≤ n) (hvalid : n.isValidChar) :
    ∃ b p, Lead b p ∧ p.Admits n := by
  have hoctet (k : Nat) (hk : k < 256) : ∃ b : UInt8, b.toNat = k :=
    ⟨UInt8.ofNat k, by rw [UInt8.toNat_ofNat']; omega⟩
  obtain ⟨h80, h90, hA0, h8F, h9F, hBF⟩ := toNat_range
  unfold Nat.isValidChar at hvalid
  rcases Nat.lt_or_ge n 0x800 with htwo | hthree
  · obtain ⟨b, hb⟩ := hoctet (n / 64 + 0xC0) (by omega)
    refine ⟨b, _, .two (by omega) (by omega), ?_⟩
    rw [Pending.admits_any]
    omega
  rcases Nat.lt_or_ge n 0x10000 with hthree' | hfour
  · obtain ⟨b, hb⟩ := hoctet (n / 4096 + 0xE0) (by omega)
    by_cases hfirst : n / 4096 = 0
    · refine ⟨b, _, .firstThree (by omega), ?_⟩
      rw [Pending.admits_iff_of_range hA0 hBF]
      omega
    by_cases hsurrogates : n / 4096 = 0xD
    · refine ⟨b, _, .surrogates (by omega), ?_⟩
      rw [Pending.admits_iff_of_range h80 h9F]
      omega
    · refine ⟨b, _, .three (by omega) (by omega) (by omega), ?_⟩
      rw [Pending.admits_any]
      omega
  · obtain ⟨b, hb⟩ := hoctet (n / 262144 + 0xF0) (by omega)
    by_cases hfirst : n / 262144 = 0
    · refine ⟨b, _, .firstFour (by omega), ?_⟩
      rw [Pending.admits_iff_of_range h90 hBF]
      omega
    by_cases hlast : n / 262144 = 4
    · refine ⟨b, _, .lastFour (by omega), ?_⟩
      rw [Pending.admits_iff_of_range h80 h8F]
      omega
    · refine ⟨b, _, .four (by omega) (by omega), ?_⟩
      rw [Pending.admits_any]
      omega

/-! ## Whole texts -/

/-- The octets of a character are read as this character. -/
theorem pieces_utf8EncodeChar (c : Char) (bytes : Bytes) :
    pieces (String.utf8EncodeChar c ++ bytes) = some c :: pieces bytes := by
  by_cases hascii : c.toNat < 0x80
  · exact pieces_utf8EncodeChar_of_lt hascii bytes
  · obtain ⟨b, ⟨bits, owed, low, high⟩, hlead, hadmits⟩ :=
      exists_lead (Nat.le_of_not_lt hascii) c.valid
    have hbegins := hlead.begins
    obtain ⟨left, rfl⟩ : ∃ left, owed = left + 1 := Nat.exists_eq_add_of_le' hbegins.ordinary.owed
    have hspells := hbegins.spells _ hadmits
    rw [Char.ofNat_toNat] at hspells
    rw [hspells, List.cons_append, pieces, piecesFrom_cons, step, start_eq_some_iff.mpr hlead,
      List.nil_append, piecesFrom_trailing hbegins.ordinary hadmits, Char.ofNat_toNat]

/-- What is read as characters begins with the octets of the first of them. -/
theorem exists_utf8EncodeChar_of_pieces {bytes : Bytes} {c : Char} {chars : List Char}
    (h : pieces bytes = (c :: chars).map some) :
    ∃ rest, bytes = String.utf8EncodeChar c ++ rest ∧ pieces rest = chars.map some := by
  cases bytes with
  | nil => cases h
  | cons b bytes =>
    by_cases hascii : b ≤ 0x7F
    · rw [pieces_ascii_cons hascii] at h
      obtain ⟨hc, hrest⟩ := List.cons.inj h
      cases hc
      exact ⟨bytes, by rw [utf8EncodeChar_ofNat hascii, List.singleton_append], hrest⟩
    · rw [pieces, piecesFrom_cons, step] at h
      rcases start_of_lt (UInt8.not_le.mp hascii) with hstart | ⟨⟨bits, owed, low, high⟩, hstart, -⟩
      · rw [hstart] at h
        cases h
      · have hbegins := (start_eq_some_iff.mp hstart).begins
        obtain ⟨left, rfl⟩ : ∃ left, owed = left + 1 :=
          Nat.exists_eq_add_of_le' hbegins.ordinary.owed
        rw [hstart] at h
        obtain ⟨n, rest, more, hadmits, rfl, hchars, hrest⟩ :=
          exists_trailing_of_piecesFrom hbegins.ordinary h
        obtain ⟨rfl, rfl⟩ := List.cons.inj hchars
        exact ⟨rest, by rw [hbegins.spells n hadmits, List.cons_append], hrest⟩

theorem eq_nil_of_pieces {bytes : Bytes} (h : pieces bytes = []) : bytes = [] := by
  cases bytes with
  | nil => rfl
  | cons b bytes =>
    by_cases hascii : b ≤ 0x7F
    · rw [pieces_ascii_cons hascii] at h
      cases h
    · obtain ⟨piece, hpiece, -⟩ := exists_isForeign_of_lt (UInt8.not_le.mp hascii) bytes
      rw [h] at hpiece
      cases hpiece

theorem pieces_eq_map_some_iff {bytes : Bytes} {chars : List Char} :
    pieces bytes = chars.map some ↔ bytes = chars.flatMap String.utf8EncodeChar := by
  induction chars generalizing bytes with
  | nil =>
    constructor
    · exact eq_nil_of_pieces
    · rintro rfl
      rfl
  | cons c chars ih =>
    constructor
    · intro h
      obtain ⟨rest, rfl, hrest⟩ := exists_utf8EncodeChar_of_pieces h
      rw [ih.mp hrest, List.flatMap_cons]
    · rintro rfl
      rw [List.flatMap_cons, pieces_utf8EncodeChar, ih.mpr rfl, List.map_cons]

/-- All of the options hold these values. -/
theorem mapM_id_eq_some_iff {α : Type} {options : List (Option α)} {values : List α} :
    options.mapM id = some values ↔ options = values.map some := by
  induction options generalizing values with
  | nil => cases values <;> simp
  | cons option options ih =>
    rw [List.mapM_cons]
    cases option <;> cases values <;> simp [Option.bind_eq_some_iff, ih, and_comm]

/-- Octets are read as a text exactly if they are the octets of that text. -/
theorem decode?_eq_some_iff {bytes : Bytes} {chars : List Char} :
    decode? bytes = some chars ↔ bytes = encode (String.ofList chars) := by
  rw [decode?, mapM_id_eq_some_iff, pieces_eq_map_some_iff, encode, String.toList_ofList]

end PdfConformance.Text.Utf8

/-! # UTF-8

Octets as text. `pieces` reads octets one at a time and yields a character for each well-formed
sequence and `none` for each maximal ill-formed part: the longest run of octets that begins a
sequence and cannot be continued, or a single octet that begins none. A refused octet is looked at
again as the beginning of a new sequence, so nothing is skipped. `decode?` accepts text without
ill-formed parts, `decodeLossy` writes U+FFFD for each of them, and `encode` is the way back. -/

namespace PdfConformance

/-- Octets as they stand in a file. -/
abbrev Bytes := List UInt8

namespace Text.Utf8

/-- The octets of a text. -/
def encode (text : String) : Bytes := text.toList.flatMap String.utf8EncodeChar

/-- A sequence under way: the bits read so far, how many octets are owed, and the range in which
the next of them must lie. -/
structure Pending where
  bits : Nat
  owed : Nat
  low : UInt8
  high : UInt8
  deriving DecidableEq, Repr

/-- What an octet between characters begins. The narrowed ranges exclude overlong forms, surrogates
and numbers past U+10FFFF. -/
def start (b : UInt8) : List (Option Char) × Option Pending :=
  if b ≤ 0x7F then ([some (Char.ofNat b.toNat)], none)
  else if 0xC2 ≤ b ∧ b ≤ 0xDF then ([], some ⟨b.toNat - 0xC0, 1, 0x80, 0xBF⟩)
  else if b = 0xE0 then ([], some ⟨0, 2, 0xA0, 0xBF⟩)
  else if b = 0xED then ([], some ⟨0xD, 2, 0x80, 0x9F⟩)
  else if 0xE1 ≤ b ∧ b ≤ 0xEF then ([], some ⟨b.toNat - 0xE0, 2, 0x80, 0xBF⟩)
  else if b = 0xF0 then ([], some ⟨0, 3, 0x90, 0xBF⟩)
  else if b = 0xF4 then ([], some ⟨4, 3, 0x80, 0x8F⟩)
  else if 0xF1 ≤ b ∧ b ≤ 0xF3 then ([], some ⟨b.toNat - 0xF0, 3, 0x80, 0xBF⟩)
  else ([none], none)

/-- One octet: the pieces it completes and the sequence it leaves under way. -/
def step : Option Pending → UInt8 → List (Option Char) × Option Pending
  | none, b => start b
  | some p, b =>
    if p.low ≤ b ∧ b ≤ p.high then
      let bits := p.bits * 64 + (b.toNat - 0x80)
      if p.owed ≤ 1 then ([some (Char.ofNat bits)], none)
      else ([], some ⟨bits, p.owed - 1, 0x80, 0xBF⟩)
    else (none :: (start b).1, (start b).2)

/-- The pieces of what follows a sequence under way. One cut short by the end is ill-formed. -/
def piecesFrom : Option Pending → Bytes → List (Option Char)
  | none, [] => []
  | some _, [] => [none]
  | state, b :: bs => (step state b).1 ++ piecesFrom (step state b).2 bs

def pieces (bytes : Bytes) : List (Option Char) := piecesFrom none bytes

/-- The characters of well-formed octets. -/
def decode? (bytes : Bytes) : Option (List Char) := (pieces bytes).mapM id

/-- The text with U+FFFD in place of each ill-formed part. -/
def decodeLossy (bytes : Bytes) : String :=
  String.ofList ((pieces bytes).map (·.getD '\uFFFD'))

/-- Octets below 0x80 are characters of their own. -/
theorem pieces_ascii_cons {b : UInt8} (h : b ≤ 0x7F) (bytes : Bytes) :
    pieces (b :: bytes) = some (Char.ofNat b.toNat) :: pieces bytes := by
  simp [pieces, piecesFrom, step, start, h]

end Text.Utf8

end PdfConformance

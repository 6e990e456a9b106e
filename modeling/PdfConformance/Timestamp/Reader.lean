import PdfConformance.Mode
import PdfConformance.Text.Blank
import PdfConformance.Text.Utf8
import PdfConformance.Timestamp

/-! # Reading date strings

A moment is written `D:YYYYMMDDHHmmSSOHH'mm'`. Only the year has to be written; month and day
default to 1, the time to midnight and the distance from universal time to zero. `Mode.relaxed` lets
the `D:` be missing, the last apostrophe be missing or doubled, and zeros and apostrophes follow a
`Z`. -/

namespace PdfConformance.Timestamp

def digitValue (c : Char) : Nat := c.toNat - '0'.toNat

/-- The numbers written in successive pairs of digits. -/
def pairs : List Char → List Nat
  | a :: b :: rest => (digitValue a * 10 + digitValue b) :: pairs rest
  | _ => []

/-- The number two leading digits write, and what follows them. -/
def twoDigits? : List Char → Option (Nat × List Char)
  | a :: b :: rest =>
    if a.isDigit && b.isDigit then some (digitValue a * 10 + digitValue b, rest) else none
  | _ => none

/-- What may stand after the minutes of an offset. -/
def closes (mode : Mode) (rest : List Char) : Bool :=
  rest == ['\''] || mode == .relaxed && (rest == [] || rest == ['\'', '\''])

def readMinutes? (mode : Mode) (west : Bool) (hours : Nat) : List Char → Option Offset
  | [] => Offset.ofParts? west hours 0
  | ['\''] => Offset.ofParts? west hours 0
  | '\'' :: rest => do
    let (minutes, rest) ← twoDigits? rest
    if closes mode rest then Offset.ofParts? west hours minutes else none
  | _ => none

def readHours? (mode : Mode) (west : Bool) (tail : List Char) : Option Offset := do
  let (hours, rest) ← twoDigits? tail
  readMinutes? mode west hours rest

/-- The offset after the digits of a date string. -/
def readOffset? (mode : Mode) : List Char → Option Offset
  | [] => some .universal
  | 'Z' :: rest =>
    if rest.isEmpty || mode == .relaxed && rest.all (fun c => c == '0' || c == '\'')
    then some .universal else none
  | '+' :: rest => readHours? mode false rest
  | '-' :: rest => readHours? mode true rest
  | _ => none

/-- What follows the `D:`. -/
def body? (mode : Mode) : List Char → Option (List Char)
  | 'D' :: ':' :: rest => some rest
  | text => if mode = .relaxed then some text else none

/-- Date and time from the digits: four for the year, then pairs. -/
def readFields? (fields : List Char) : Option (Date × Clock) :=
  match pairs fields with
  | century :: year :: rest => do
    let date ← Date.ofParts? (century * 100 + year) (rest.getD 0 1) (rest.getD 1 1)
    let clock ← Clock.ofParts? (rest.getD 2 0) (rest.getD 3 0) (rest.getD 4 0)
    return (date, clock)
  | _ => none

/-- The moment that characters without blanks around them write. -/
def readText? (mode : Mode) (text : List Char) : Option Timestamp := do
  let body ← body? mode text
  let fields := body.takeWhile Char.isDigit
  guard (4 ≤ fields.length ∧ fields.length ≤ 14 ∧ fields.length % 2 = 0)
  let (date, clock) ← readFields? fields
  let offset ← readOffset? mode (body.dropWhile Char.isDigit)
  return ⟨date, clock, offset⟩

/-- The moment a date string writes. -/
def read? (mode : Mode) (raw : Bytes) : Option Timestamp := do
  let chars ← Text.Utf8.decode? raw
  readText? mode (Text.trim chars)

end PdfConformance.Timestamp

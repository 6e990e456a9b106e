import PdfConformance.Calendar

/-! # Moments

What a date string writes: the wall clock at some place, and how far that place is from universal
time. `instant` is the moment on a common scale, `render` the full form of the date string. -/

namespace PdfConformance

/-- A time of day, without leap seconds. -/
structure Clock where
  hour : Nat
  minute : Nat
  second : Nat
  hour_lt : hour < 24
  minute_lt : minute < 60
  second_lt : second < 60
  deriving DecidableEq, Repr

namespace Clock

def ofParts? (hour minute second : Nat) : Option Clock :=
  if h : hour < 24 ∧ minute < 60 ∧ second < 60 then some ⟨hour, minute, second, h.1, h.2.1, h.2.2⟩
  else none

theorem ofParts?_eq_some_iff {hour minute second : Nat} {c : Clock} :
    ofParts? hour minute second = some c ↔
      c.hour = hour ∧ c.minute = minute ∧ c.second = second := by
  constructor
  · intro h
    unfold ofParts? at h
    split at h
    · cases h
      exact ⟨rfl, rfl, rfl⟩
    · cases h
  · rintro ⟨rfl, rfl, rfl⟩
    exact dif_pos ⟨c.hour_lt, c.minute_lt, c.second_lt⟩

/-- Seconds since midnight. -/
def seconds (c : Clock) : Nat := c.hour * 3600 + c.minute * 60 + c.second

end Clock

/-- The distance of a wall clock from universal time. -/
structure Offset where
  west : Bool
  hours : Nat
  minutes : Nat
  hours_lt : hours < 24
  minutes_lt : minutes < 60
  deriving DecidableEq, Repr

namespace Offset

def universal : Offset := ⟨false, 0, 0, by decide, by decide⟩

def ofParts? (west : Bool) (hours minutes : Nat) : Option Offset :=
  if h : hours < 24 ∧ minutes < 60 then some ⟨west, hours, minutes, h.1, h.2⟩ else none

theorem ofParts?_eq_some_iff {west : Bool} {hours minutes : Nat} {o : Offset} :
    ofParts? west hours minutes = some o ↔
      o.west = west ∧ o.hours = hours ∧ o.minutes = minutes := by
  constructor
  · intro h
    unfold ofParts? at h
    split at h
    · cases h
      exact ⟨rfl, rfl, rfl⟩
    · cases h
  · rintro ⟨rfl, rfl, rfl⟩
    exact dif_pos ⟨o.hours_lt, o.minutes_lt⟩

/-- Seconds by which the wall clock is ahead of universal time. -/
def seconds (o : Offset) : Int :=
  let distance : Int := o.hours * 3600 + o.minutes * 60
  if o.west then -distance else distance

end Offset

structure Timestamp where
  date : Date
  clock : Clock
  offset : Offset
  deriving DecidableEq, Repr

namespace Timestamp

/-- Seconds from the beginning of 1970, universal time; negative before it. -/
def instant (t : Timestamp) : Int :=
  86400 * ((t.date.dayNumber : Int) - Date.epoch.dayNumber) + t.clock.seconds - t.offset.seconds

/-- The last `width` decimal digits of a number. -/
def digits : (width : Nat) → Nat → List Char
  | 0, _ => []
  | width + 1, n => digits width (n / 10) ++ [Nat.digitChar (n % 10)]

/-- The wall clock as `YYYY-MM-DD HH:MM:SS`. -/
def wallClock (t : Timestamp) : String :=
  String.ofList <| digits 4 t.date.year ++ '-' :: digits 2 t.date.month
    ++ '-' :: digits 2 t.date.day ++ ' ' :: digits 2 t.clock.hour ++ ':' :: digits 2 t.clock.minute
    ++ ':' :: digits 2 t.clock.second

/-- The full form of a date string, for a year before 10000. -/
def render (t : Timestamp) : List Char :=
  'D' :: ':' :: digits 4 t.date.year ++ digits 2 t.date.month ++ digits 2 t.date.day
    ++ digits 2 t.clock.hour ++ digits 2 t.clock.minute ++ digits 2 t.clock.second
    ++ (if t.offset.west then '-' else '+') :: digits 2 t.offset.hours
    ++ '\'' :: digits 2 t.offset.minutes ++ ['\'']

@[simp] theorem length_digits (width n : Nat) : (digits width n).length = width := by
  induction width generalizing n with
  | zero => rfl
  | succ width ih => simp [digits, ih]

end Timestamp

end PdfConformance

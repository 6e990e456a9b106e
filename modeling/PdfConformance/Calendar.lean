/-! # The proleptic Gregorian calendar

Dates from the year 0 on, under the Gregorian leap rule throughout. `Date.dayNumber` counts the days
since 1 January of the year 0 in closed form; `Date.next` is the day after. -/

namespace PdfConformance

/-- Every fourth year, except the centuries that 400 does not divide. -/
def isLeapYear (year : Nat) : Bool := year % 4 == 0 && (year % 100 != 0 || year % 400 == 0)

def daysInYear (year : Nat) : Nat := if isLeapYear year then 366 else 365

def daysInMonth (year month : Nat) : Nat :=
  if month = 2 then if isLeapYear year then 29 else 28
  else if month = 4 ∨ month = 6 ∨ month = 9 ∨ month = 11 then 30
  else 31

/-- A day that exists. -/
structure Date where
  year : Nat
  month : Nat
  day : Nat
  month_pos : 1 ≤ month
  month_le : month ≤ 12
  day_pos : 1 ≤ day
  day_le : day ≤ daysInMonth year month
  deriving DecidableEq, Repr

namespace Date

def ofParts? (year month day : Nat) : Option Date :=
  if h : (1 ≤ month ∧ month ≤ 12) ∧ 1 ≤ day ∧ day ≤ daysInMonth year month then
    some ⟨year, month, day, h.1.1, h.1.2, h.2.1, h.2.2⟩
  else none

/-- Days from the beginning of the year 0 to that of `year`; the year 0 is a leap year. -/
def daysBeforeYear (year : Nat) : Nat :=
  365 * year + (year + 3) / 4 - (year + 99) / 100 + (year + 399) / 400

/-- Days in the first `months` months of a year. -/
def daysInMonths (year : Nat) : (months : Nat) → Nat
  | 0 => 0
  | months + 1 => daysInMonths year months + daysInMonth year (months + 1)

def dayNumber (d : Date) : Nat :=
  daysBeforeYear d.year + daysInMonths d.year (d.month - 1) + (d.day - 1)

/-- 1 January 1970. -/
def epoch : Date := ⟨1970, 1, 1, by decide, by decide, by decide, by decide⟩

theorem ofParts?_eq_some_iff {year month day : Nat} {d : Date} :
    ofParts? year month day = some d ↔ d.year = year ∧ d.month = month ∧ d.day = day := by
  constructor
  · intro h
    simp only [ofParts?] at h
    split at h <;> simp_all
    subst h
    exact ⟨rfl, rfl, rfl⟩
  · rintro ⟨rfl, rfl, rfl⟩
    simp [ofParts?, d.month_pos, d.month_le, d.day_pos, d.day_le]

theorem daysInMonth_pos (year month : Nat) : 1 ≤ daysInMonth year month := by
  unfold daysInMonth
  split
  · split <;> omega
  · split <;> omega

/-- The day after. -/
def next (d : Date) : Date :=
  if h : d.day < daysInMonth d.year d.month then
    ⟨d.year, d.month, d.day + 1, d.month_pos, d.month_le, by omega, h⟩
  else if h : d.month < 12 then
    ⟨d.year, d.month + 1, 1, by omega, h, Nat.le_refl 1, daysInMonth_pos _ _⟩
  else ⟨d.year + 1, 1, 1, by omega, by omega, Nat.le_refl 1, daysInMonth_pos _ _⟩

theorem daysInYear_eq (year : Nat) :
    daysInYear year = 365 + (if year % 4 = 0 then 1 else 0) - (if year % 100 = 0 then 1 else 0) +
      (if year % 400 = 0 then 1 else 0) := by
  by_cases h4 : year % 4 = 0 <;> by_cases h100 : year % 100 = 0 <;>
    by_cases h400 : year % 400 = 0 <;> simp [daysInYear, isLeapYear, h4, h100, h400] <;> omega

theorem daysBeforeYear_succ (year : Nat) :
    daysBeforeYear (year + 1) = daysBeforeYear year + daysInYear year := by
  have h4 : (year + 1 + 3) / 4 = (year + 3) / 4 + if year % 4 = 0 then 1 else 0 := by
    split <;> omega
  have h100 : (year + 1 + 99) / 100 = (year + 99) / 100 + if year % 100 = 0 then 1 else 0 := by
    split <;> omega
  have h400 : (year + 1 + 399) / 400 = (year + 399) / 400 + if year % 400 = 0 then 1 else 0 := by
    split <;> omega
  have hle : (year + 99) / 100 ≤ (year + 3) / 4 := by omega
  rw [daysInYear_eq]
  simp only [daysBeforeYear, h4, h100, h400]
  generalize (if year % 4 = 0 then 1 else 0) = a
  generalize (if year % 400 = 0 then 1 else 0) = c
  split <;> omega

theorem daysInMonths_twelve (year : Nat) : daysInMonths year 12 = daysInYear year := by
  by_cases h : isLeapYear year <;> simp [daysInMonths, daysInMonth, daysInYear, h]

/-- The closed form counts day by day. -/
theorem dayNumber_next (d : Date) : d.next.dayNumber = d.dayNumber + 1 := by
  have hpos := d.day_pos
  have hle := d.day_le
  unfold next
  split
  · simp only [dayNumber]; omega
  · split
    · obtain ⟨month, hmonth⟩ : ∃ n, d.month = n + 1 := Nat.exists_eq_add_of_le' d.month_pos
      have hday : d.day = daysInMonth d.year (month + 1) := by rw [← hmonth]; omega
      simp only [dayNumber, hmonth, daysInMonths, Nat.add_sub_cancel]; omega
    · have hlast : d.month = 12 := by have := d.month_le; omega
      have hday : d.day = daysInMonth d.year 12 := by rw [← hlast]; omega
      have hyear : daysInMonths d.year 11 + daysInMonth d.year 12 = daysInYear d.year :=
        daysInMonths_twelve d.year
      have hzero : daysInMonths (d.year + 1) 0 = 0 := rfl
      simp only [dayNumber, hlast, daysBeforeYear_succ, Nat.reduceSub]
      omega

end Date

end PdfConformance

import Mathlib.Data.List.Lex
import Mathlib.Logic.Function.Iterate
import PdfConformance.Calendar

/-! # Days counted one by one

`Date.Counted` goes through the calendar from one day to another, a day at a time and in either
direction. `counted_iff`: the numbers of the two days tell how far that is. An earlier day has a
lesser number, since a day lies in its year and a month before another ends before it. -/

namespace PdfConformance.Date

/-- Going through the calendar a day at a time leads from the first day to the second in so many
days, backwards if the number is negative. -/
inductive Counted (first : Date) : Int → Date → Prop
  | here : Counted first 0 first
  | forward {n : Int} {d : Date} : Counted first n d → Counted first (n + 1) d.next
  | back {n : Int} {d : Date} : Counted first n d.next → Counted first (n - 1) d

/-- Year, month and day, which come in this order. -/
def fields (d : Date) : List Nat := [d.year, d.month, d.day]

/-! ## The order of the days -/

theorem daysBeforeYear_mono {year later : Nat} (h : year ≤ later) :
    daysBeforeYear year ≤ daysBeforeYear later := by
  induction h with
  | refl => exact Nat.le_refl _
  | @step later _ ih =>
    rw [Nat.succ_eq_add_one, daysBeforeYear_succ]
    omega

theorem daysInMonths_mono (year : Nat) {months more : Nat} (h : months ≤ more) :
    daysInMonths year months ≤ daysInMonths year more := by
  induction h with
  | refl => exact Nat.le_refl _
  | @step more _ ih =>
    rw [Nat.succ_eq_add_one, daysInMonths]
    omega

/-- The days of the year before this one. -/
def dayOfYear (d : Date) : Nat := daysInMonths d.year (d.month - 1) + (d.day - 1)

theorem dayNumber_eq (d : Date) : d.dayNumber = daysBeforeYear d.year + d.dayOfYear := by
  unfold dayNumber dayOfYear
  omega

/-- A day lies before the end of its month. -/
theorem dayOfYear_lt_daysInMonths (d : Date) : d.dayOfYear < daysInMonths d.year d.month := by
  obtain ⟨month, hmonth⟩ : ∃ n, d.month = n + 1 := Nat.exists_eq_add_of_le' d.month_pos
  have hpos := d.day_pos
  have hle := d.day_le
  rw [hmonth] at hle
  rw [dayOfYear, hmonth, daysInMonths, Nat.add_sub_cancel]
  omega

theorem dayOfYear_lt (d : Date) : d.dayOfYear < daysInYear d.year :=
  calc d.dayOfYear < daysInMonths d.year d.month := d.dayOfYear_lt_daysInMonths
    _ ≤ daysInMonths d.year 12 := daysInMonths_mono d.year d.month_le
    _ = daysInYear d.year := daysInMonths_twelve d.year

theorem dayNumber_lt_of_year_lt {d e : Date} (h : d.year < e.year) : d.dayNumber < e.dayNumber :=
  calc d.dayNumber = daysBeforeYear d.year + d.dayOfYear := d.dayNumber_eq
    _ < daysBeforeYear d.year + daysInYear d.year := Nat.add_lt_add_left d.dayOfYear_lt _
    _ = daysBeforeYear (d.year + 1) := (daysBeforeYear_succ d.year).symm
    _ ≤ daysBeforeYear e.year := daysBeforeYear_mono h
    _ ≤ e.dayNumber := by rw [e.dayNumber_eq]; exact Nat.le_add_right _ _

theorem dayOfYear_lt_of_month_lt {d e : Date} (hyear : d.year = e.year) (h : d.month < e.month) :
    d.dayOfYear < e.dayOfYear :=
  calc d.dayOfYear < daysInMonths d.year d.month := d.dayOfYear_lt_daysInMonths
    _ ≤ daysInMonths d.year (e.month - 1) := daysInMonths_mono d.year (by omega)
    _ ≤ e.dayOfYear := by rw [hyear, dayOfYear]; exact Nat.le_add_right _ _

/-- The days are numbered in their order. -/
theorem dayNumber_lt_of_fields_lt {d e : Date} (h : d.fields < e.fields) :
    d.dayNumber < e.dayNumber := by
  have hpos := d.day_pos
  simp only [fields, List.cons_lt_cons_iff, List.not_lt_nil, and_false, or_false] at h
  rcases h with hyear | ⟨hyear, hmonth | ⟨hmonth, hday⟩⟩
  · exact dayNumber_lt_of_year_lt hyear
  · have hlt := dayOfYear_lt_of_month_lt hyear hmonth
    rw [d.dayNumber_eq, e.dayNumber_eq, hyear]
    omega
  · rw [dayNumber, dayNumber, hyear, hmonth]
    omega

theorem eq_of_fields_eq {d e : Date} (h : d.fields = e.fields) : d = e := by
  obtain ⟨hyear, hmonth, hday⟩ : d.year = e.year ∧ d.month = e.month ∧ d.day = e.day := by
    simpa [fields] using h
  have he : ofParts? e.year e.month e.day = some d :=
    ofParts?_eq_some_iff.mpr ⟨hyear, hmonth, hday⟩
  exact Option.some.inj (he.symm.trans (ofParts?_eq_some_iff.mpr ⟨rfl, rfl, rfl⟩))

/-- No two days have the same number. -/
theorem dayNumber_injective {d e : Date} (h : d.dayNumber = e.dayNumber) : d = e := by
  rcases lt_trichotomy d.fields e.fields with hlt | heq | hgt
  · exact absurd h (Nat.ne_of_lt (dayNumber_lt_of_fields_lt hlt))
  · exact eq_of_fields_eq heq
  · exact absurd h.symm (Nat.ne_of_lt (dayNumber_lt_of_fields_lt hgt))

/-! ## Counting -/

variable {first d : Date} {n : Int}

theorem Counted.dayNumber_eq (h : Counted first n d) :
    (d.dayNumber : Int) = first.dayNumber + n := by
  induction h with
  | here => omega
  | forward _ ih =>
    rw [dayNumber_next]
    omega
  | back _ ih =>
    rw [dayNumber_next] at ih
    omega

theorem dayNumber_iterate (d : Date) (days : Nat) :
    (next^[days] d).dayNumber = d.dayNumber + days := by
  induction days with
  | zero => rfl
  | succ days ih =>
    rw [Function.iterate_succ_apply', dayNumber_next, ih]
    omega

theorem counted_iterate (first : Date) (days : Nat) : Counted first days (next^[days] first) := by
  induction days with
  | zero => exact .here
  | succ days ih =>
    rw [Function.iterate_succ_apply']
    exact_mod_cast ih.forward

theorem counted_of_iterate {days : Nat} (h : Counted first n (next^[days] d)) :
    Counted first (n - days) d := by
  induction days generalizing n with
  | zero => simpa using h
  | succ days ih =>
    rw [Function.iterate_succ_apply'] at h
    have hback := ih h.back
    have heq : n - 1 - (days : Int) = n - ((days + 1 : Nat) : Int) := by omega
    rwa [heq] at hback

/-- So many days lead from one day to the other as their numbers are apart. -/
theorem counted_iff : Counted first n d ↔ (d.dayNumber : Int) = first.dayNumber + n := by
  refine ⟨Counted.dayNumber_eq, fun h => ?_⟩
  -- the count leads to a day with the right number, and there is only one
  rcases Int.le_total 0 n with hforward | hback
  · obtain ⟨days, rfl⟩ := Int.eq_ofNat_of_zero_le hforward
    have heq : next^[days] first = d := by
      apply dayNumber_injective
      rw [dayNumber_iterate]
      omega
    exact heq ▸ counted_iterate first days
  · obtain ⟨days, hdays⟩ := Int.eq_ofNat_of_zero_le (Int.neg_nonneg_of_nonpos hback)
    have heq : next^[days] d = first := by
      apply dayNumber_injective
      rw [dayNumber_iterate]
      omega
    have hcounted : Counted first (0 - days) d := counted_of_iterate (heq ▸ .here)
    have hn : 0 - (days : Int) = n := by omega
    exact hn ▸ hcounted

end PdfConformance.Date

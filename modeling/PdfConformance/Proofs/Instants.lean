import PdfConformance.Proofs.Calendar
import PdfConformance.Proofs.DateStrings

/-! # What moments date strings denote

`read?_render_and_instant`: the full form of a date string reads as the moment it was written for,
and the instant of a moment is told by counting days through the calendar, so that where the offset
is the same a later wall clock means a later instant. -/

namespace PdfConformance

namespace Clock

/-- Hour, minute and second, which come in this order. -/
def fields (c : Clock) : List Nat := [c.hour, c.minute, c.second]

theorem seconds_lt (c : Clock) : c.seconds < 86400 := by
  have hhour := c.hour_lt
  have hminute := c.minute_lt
  have hsecond := c.second_lt
  unfold seconds
  omega

theorem seconds_lt_of_fields_lt {c d : Clock} (h : c.fields < d.fields) :
    c.seconds < d.seconds := by
  have hminute := c.minute_lt
  have hsecond := c.second_lt
  simp only [fields, List.cons_lt_cons_iff, List.not_lt_nil, and_false, or_false] at h
  unfold seconds
  omega

end Clock

namespace Timestamp

/-- What the wall clock shows, from the year down to the second. -/
def fields (t : Timestamp) : List Nat := t.date.fields ++ t.clock.fields

/-- The full form is one of those that the grammar has for the moment. -/
theorem written_render (mode : Mode) {t : Timestamp} (h : t.date.year < 10000) :
    Written mode t t.render := by
  have hfields : WritesFields t.date t.clock _
      [t.date.month, t.date.day, t.clock.hour, t.clock.minute, t.clock.second] := ⟨h, rfl, rfl⟩
  have hwritten : Written mode t _ := .mk .given hfields (.signed (.minutes (.inl rfl)))
  simpa [render, Offset.sign] using hwritten

theorem read?_render (mode : Mode) {t : Timestamp} (h : t.date.year < 10000) :
    read? mode (Text.Utf8.encode (String.ofList t.render)) = some t := by
  refine read?_eq_some_iff.mpr ⟨[], t.render, [], ?_, nofun, written_render mode h⟩
  rw [List.nil_append, List.append_nil]

/-- Of two wall clocks the dates come first. -/
theorem date_or_clock_lt {t u : Timestamp} (h : t.fields < u.fields) :
    t.date.fields < u.date.fields ∨ t.date = u.date ∧ t.clock.fields < u.clock.fields := by
  simp only [fields, Date.fields, Clock.fields, List.cons_append, List.nil_append,
    List.cons_lt_cons_iff, List.not_lt_nil, and_false, or_false] at h ⊢
  by_cases hdate : t.date.fields = u.date.fields
  · refine .inr ⟨Date.eq_of_fields_eq hdate, ?_⟩
    simp only [Date.fields, List.cons.injEq, and_true] at hdate
    omega
  · simp only [Date.fields, List.cons.injEq, and_true] at hdate
    omega

theorem instant_lt_of_fields_lt {t u : Timestamp} (hoffset : t.offset.seconds = u.offset.seconds)
    (h : t.fields < u.fields) : t.instant < u.instant := by
  unfold instant
  rcases date_or_clock_lt h with hdate | ⟨hdate, hclock⟩
  · have hdays := Date.dayNumber_lt_of_fields_lt hdate
    have hseconds := t.clock.seconds_lt
    omega
  · have hseconds := Clock.seconds_lt_of_fields_lt hclock
    rw [hdate, hoffset]
    omega

/-- Moments are written and read back, and their instants count the days through the calendar. -/
theorem read?_render_and_instant :
    (∀ mode (t : Timestamp), t.date.year < 10000 →
      read? mode (Text.Utf8.encode (String.ofList t.render)) = some t) ∧
    (∀ t : Timestamp, ∃ days, (∀ n, Date.epoch.Counted n t.date ↔ n = days) ∧
      t.instant = 86400 * days +
        (3600 * t.clock.hour + 60 * t.clock.minute + t.clock.second) - t.offset.seconds) ∧
    (∀ t u : Timestamp, t.offset.seconds = u.offset.seconds → t.fields < u.fields →
      t.instant < u.instant) := by
  refine ⟨fun mode t h => read?_render mode h, fun t => ?_, fun t u => instant_lt_of_fields_lt⟩
  refine ⟨t.date.dayNumber - Date.epoch.dayNumber, fun n => ?_, ?_⟩
  · rw [Date.counted_iff]
    omega
  · unfold instant Clock.seconds
    omega

/-- Half an hour before midnight on a leap day before 1970, where it is early by five and a half
hours. -/
theorem read?_render_leapNight : ∃ t : Timestamp, t.render = "D:19680229233000-05'30'".toList ∧
    read? .strict (Text.Utf8.encode (String.ofList t.render)) = some t ∧
    Date.epoch.Counted (-672) t.date ∧ t.instant = -57956400 := by
  obtain ⟨t, hrender, hyear, hcounted, hclock, hoffset⟩ : ∃ t : Timestamp,
      t.render = "D:19680229233000-05'30'".toList ∧ t.date.year < 10000 ∧
      Date.epoch.Counted (-672) t.date ∧
      3600 * t.clock.hour + 60 * t.clock.minute + t.clock.second = 84600 ∧
      t.offset.seconds = -19800 := by
    refine ⟨⟨⟨1968, 2, 29, by decide, by decide, by decide, by decide⟩,
      ⟨23, 30, 0, by decide, by decide, by decide⟩, ⟨true, 5, 30, by decide, by decide⟩⟩,
      rfl, by decide, Date.counted_iff.mpr (by decide +kernel), by decide, by decide⟩
  refine ⟨t, hrender, read?_render_and_instant.1 .strict t hyear, hcounted, ?_⟩
  obtain ⟨days, hdays, hinstant⟩ := read?_render_and_instant.2.1 t
  have hcount := (hdays (-672)).mp hcounted
  rw [hinstant, hoffset]
  omega

end Timestamp

end PdfConformance

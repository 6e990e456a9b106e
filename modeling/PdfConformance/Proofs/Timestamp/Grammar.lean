import Mathlib.Data.List.TakeWhile
import PdfConformance.Timestamp.Reader

/-! # What date strings write

The grammar of date strings, told by what is written: a marker, the digits of some of the fields,
and an offset. `readText?_eq_some_iff` says that the reader accepts what the grammar has, and
nothing else. The digits end where the offset begins, since no offset begins with a digit. -/

namespace PdfConformance

/-- The sign that an offset is written with. -/
def Offset.sign (o : Offset) : Char := if o.west then '-' else '+'

namespace Timestamp

/-- What a date string begins with. -/
inductive Marker (mode : Mode) : List Char → Prop
  | given : Marker mode ['D', ':']
  | missing : mode = .relaxed → Marker mode []

/-- The digits write the year and some of the fields after it, in order. What is not written is as
the defaults have it. -/
structure WritesFields (date : Date) (clock : Clock) (text : List Char) (written : List Nat) :
    Prop where
  year : date.year < 10000
  text_eq : text = digits 4 date.year ++ written.flatMap (digits 2)
  fields : written ++ [1, 1, 0, 0, 0].drop written.length =
    [date.month, date.day, clock.hour, clock.minute, clock.second]

/-- The text after the sign writes how far the wall clock is from universal time. -/
inductive WritesDistance (mode : Mode) (o : Offset) : List Char → Prop
  | hours {closing : List Char} : o.minutes = 0 → closing = [] ∨ closing = ['\''] →
      WritesDistance mode o (digits 2 o.hours ++ closing)
  | minutes {closing : List Char} :
      closing = ['\''] ∨ mode = .relaxed ∧ (closing = [] ∨ closing = ['\'', '\'']) →
      WritesDistance mode o (digits 2 o.hours ++ '\'' :: (digits 2 o.minutes ++ closing))

/-- The text after the digits writes the offset. -/
inductive WritesOffset (mode : Mode) : Offset → List Char → Prop
  | nothing : WritesOffset mode .universal []
  | universal {rest : List Char} :
      rest = [] ∨ mode = .relaxed ∧ (∀ c ∈ rest, c = '0' ∨ c = '\'') →
      WritesOffset mode .universal ('Z' :: rest)
  | signed {o : Offset} {distance : List Char} : WritesDistance mode o distance →
      WritesOffset mode o (o.sign :: distance)

/-- The text without blanks around it writes the moment. -/
inductive Written (mode : Mode) (t : Timestamp) : List Char → Prop
  | mk {marker fields tail : List Char} {written : List Nat} : Marker mode marker →
      WritesFields t.date t.clock fields written → WritesOffset mode t.offset tail →
      Written mode t (marker ++ fields ++ tail)

/-! ## Digits -/

theorem isDigit_iff {c : Char} : c.isDigit = true ↔ 48 ≤ c.toNat ∧ c.toNat ≤ 57 := by
  simp [Char.isDigit, UInt32.le_iff_toNat_le]

theorem digitValue_lt {c : Char} (h : c.isDigit = true) : digitValue c < 10 := by
  obtain ⟨hge, hle⟩ := isDigit_iff.mp h
  show c.toNat - 48 < 10
  omega

theorem digitChar_digitValue {c : Char} (h : c.isDigit = true) :
    Nat.digitChar (digitValue c) = c := by
  obtain ⟨hge, -⟩ := isDigit_iff.mp h
  have hvalue : digitValue c = c.toNat - 48 := rfl
  apply Char.toNat_inj.mp
  rw [Nat.toNat_digitChar_of_lt_ten (digitValue_lt h), hvalue]
  omega

theorem digitValue_digitChar {n : Nat} (h : n < 10) : digitValue (Nat.digitChar n) = n :=
  Nat.toNat_digitChar_sub_48_of_lt_ten h

theorem isDigit_of_mem_digits {width n : Nat} {c : Char} (h : c ∈ digits width n) :
    c.isDigit = true := by
  induction width generalizing n with
  | zero => cases h
  | succ width ih =>
    rcases List.mem_append.mp h with h | h
    · exact ih h
    · rw [List.mem_singleton.mp h, Nat.isDigit_digitChar]
      exact decide_eq_true (Nat.mod_lt n (by omega))

theorem digits_two (n : Nat) :
    digits 2 n = [Nat.digitChar (n / 10 % 10), Nat.digitChar (n % 10)] := rfl

/-- A pair of digits is that of the number that it writes. -/
theorem digits_two_pair {a b : Char} (ha : a.isDigit = true) (hb : b.isDigit = true) :
    digits 2 (digitValue a * 10 + digitValue b) = [a, b] := by
  have hlt := digitValue_lt ha
  have hlt' := digitValue_lt hb
  have htens : (digitValue a * 10 + digitValue b) / 10 % 10 = digitValue a := by omega
  have hones : (digitValue a * 10 + digitValue b) % 10 = digitValue b := by omega
  rw [digits_two, htens, hones, digitChar_digitValue ha, digitChar_digitValue hb]

theorem digitValue_pair {n : Nat} (h : n < 100) :
    digitValue (Nat.digitChar (n / 10 % 10)) * 10 + digitValue (Nat.digitChar (n % 10)) = n := by
  rw [digitValue_digitChar (by omega), digitValue_digitChar (by omega)]
  omega

theorem digits_four (century year : Nat) (h : year < 100) :
    digits 4 (century * 100 + year) = digits 2 century ++ digits 2 year := by
  have hhigh : (century * 100 + year) / 10 / 10 = century := by omega
  have htens : (century * 100 + year) / 10 % 10 = year / 10 % 10 := by omega
  have hones : (century * 100 + year) % 10 = year % 10 := by omega
  simp only [digits, hhigh, htens, hones, List.append_assoc, List.nil_append]

theorem twoDigits?_eq_some_iff {text rest : List Char} {n : Nat} :
    twoDigits? text = some (n, rest) ↔ n < 100 ∧ text = digits 2 n ++ rest := by
  constructor
  · intro h
    unfold twoDigits? at h
    split at h
    · rename_i a b rest'
      split at h
      · rename_i hdigits
        obtain ⟨ha, hb⟩ := Bool.and_eq_true_iff.mp hdigits
        have hlt := digitValue_lt ha
        have hlt' := digitValue_lt hb
        cases h
        exact ⟨by omega, by rw [digits_two_pair ha hb]; rfl⟩
      · cases h
    · cases h
  · rintro ⟨hlt, rfl⟩
    have hdigits (m : Nat) : (Nat.digitChar (m % 10)).isDigit = true := by
      rw [Nat.isDigit_digitChar]
      exact decide_eq_true (Nat.mod_lt m (by omega))
    simp only [digits_two, List.cons_append, List.nil_append, twoDigits?, hdigits, Bool.and_self,
      if_true, digitValue_pair hlt]

/-! ## Fields -/

theorem pairs_flatMap_digits {ns : List Nat} (h : ∀ n ∈ ns, n < 100) :
    pairs (ns.flatMap (digits 2)) = ns := by
  induction ns with
  | nil => rfl
  | cons n ns ih =>
    rw [List.flatMap_cons, digits_two, List.cons_append, List.cons_append, List.nil_append, pairs,
      digitValue_pair (h n List.mem_cons_self), ih fun m hm => h m (List.mem_cons_of_mem n hm)]

/-- Digits in pairs are those of the numbers that they write. -/
theorem flatMap_digits_pairs {text : List Char} (hdigits : ∀ c ∈ text, c.isDigit = true)
    (heven : text.length % 2 = 0) :
    (pairs text).flatMap (digits 2) = text ∧ ∀ n ∈ pairs text, n < 100 := by
  induction text using pairs.induct with
  | case1 a b rest ih =>
    obtain ⟨ha, hb, hrest⟩ : a.isDigit = true ∧ b.isDigit = true ∧
        ∀ c ∈ rest, c.isDigit = true := by simpa using hdigits
    obtain ⟨hflat, hlt⟩ := ih hrest (by simpa [Nat.add_assoc] using heven)
    have hlta := digitValue_lt ha
    have hltb := digitValue_lt hb
    rw [pairs, List.flatMap_cons, digits_two_pair ha hb, hflat]
    exact ⟨rfl, List.forall_mem_cons.mpr ⟨by omega, hlt⟩⟩
  | case2 text hshort =>
    match text, hshort, heven with
    | [], _, _ => exact ⟨rfl, nofun⟩
    | [_], _, heven => cases heven
    | a :: b :: rest, hshort, _ => exact absurd rfl (hshort a b rest)

theorem length_flatMap_digits (ns : List Nat) : (ns.flatMap (digits 2)).length = 2 * ns.length := by
  induction ns with
  | nil => rfl
  | cons n ns ih =>
    rw [List.flatMap_cons, List.length_append, ih, length_digits, List.length_cons]
    omega

/-- The fields after the year, of which the later ones may be missing. -/
theorem append_drop_defaults {written : List Nat} (h : written.length ≤ 5) :
    written ++ [1, 1, 0, 0, 0].drop written.length = [written.getD 0 1, written.getD 1 1,
      written.getD 2 0, written.getD 3 0, written.getD 4 0] := by
  match written, h with
  | [], _ | [_], _ | [_, _], _ | [_, _, _], _ | [_, _, _, _], _ | [_, _, _, _, _], _ => rfl
  | _ :: _ :: _ :: _ :: _ :: _ :: more, h =>
    simp only [List.length_cons] at h
    omega

namespace WritesFields

variable {date : Date} {clock : Clock} {fields : List Char} {written : List Nat}

theorem length_le (h : WritesFields date clock fields written) : written.length ≤ 5 := by
  have hlength := congrArg List.length h.fields
  simp only [List.length_append, List.length_drop, List.length_cons, List.length_nil] at hlength
  omega

theorem length_eq (h : WritesFields date clock fields written) :
    fields.length = 4 + 2 * written.length := by
  rw [h.text_eq, List.length_append, length_digits, length_flatMap_digits]

theorem isDigit (h : WritesFields date clock fields written) :
    ∀ c ∈ fields, c.isDigit = true := by
  rw [h.text_eq]
  intro c hc
  rcases List.mem_append.mp hc with hyear | hfield
  · exact isDigit_of_mem_digits hyear
  · obtain ⟨n, -, hn⟩ := List.mem_flatMap.mp hfield
    exact isDigit_of_mem_digits hn

/-- A date that exists and a time of day have no numbers of three digits. -/
theorem lt_of_mem (h : WritesFields date clock fields written) : ∀ n ∈ written, n < 100 := by
  intro n hn
  have hmem : n ∈ [date.month, date.day, clock.hour, clock.minute, clock.second] := by
    rw [← h.fields]
    exact List.mem_append_left _ hn
  have hmonth := date.month_le
  have hday := date.day_le
  have hlast : daysInMonth date.year date.month ≤ 31 := by
    unfold daysInMonth
    split
    · split <;> omega
    · split <;> omega
  have hhour := clock.hour_lt
  have hminute := clock.minute_lt
  have hsecond := clock.second_lt
  simp only [List.mem_cons, List.not_mem_nil, or_false] at hmem
  omega

end WritesFields

/-- The pairs of digits are those of the year and the fields. -/
theorem WritesFields.pairs_eq {date : Date} {clock : Clock} {fields : List Char}
    {written : List Nat} (h : WritesFields date clock fields written) :
    pairs fields = date.year / 100 :: date.year % 100 :: written := by
  have hyear := h.year
  have hsplit : date.year = date.year / 100 * 100 + date.year % 100 := by omega
  have hlt : ∀ n ∈ date.year / 100 :: date.year % 100 :: written, n < 100 :=
    List.forall_mem_cons.mpr ⟨by omega, List.forall_mem_cons.mpr ⟨by omega, h.lt_of_mem⟩⟩
  rw [← pairs_flatMap_digits hlt, h.text_eq]
  congr 1
  rw [List.flatMap_cons, List.flatMap_cons, ← List.append_assoc, ← digits_four _ _ (by omega),
    ← hsplit]

theorem readFields?_eq_some_iff {date : Date} {clock : Clock} {fields : List Char}
    (hdigits : ∀ c ∈ fields, c.isDigit = true) :
    (4 ≤ fields.length ∧ fields.length ≤ 14 ∧ fields.length % 2 = 0) ∧
        readFields? fields = some (date, clock) ↔
      ∃ written, WritesFields date clock fields written := by
  constructor
  · intro ⟨⟨hge, hle, heven⟩, h⟩
    obtain ⟨hflat, hlt⟩ := flatMap_digits_pairs hdigits heven
    unfold readFields? at h
    split at h
    · rename_i century year written hpairs
      rw [hpairs] at hflat hlt
      obtain ⟨hcentury, hyear, -⟩ : century < 100 ∧ year < 100 ∧ ∀ n ∈ written, n < 100 := by
        simpa using hlt
      -- fourteen digits are those of a year and five fields
      have hfew : written.length ≤ 5 := by
        have hlength := length_flatMap_digits (century :: year :: written)
        rw [hflat, List.length_cons, List.length_cons] at hlength
        omega
      obtain ⟨found, hdate, h⟩ := Option.bind_eq_some_iff.mp h
      obtain ⟨foundClock, hclock, h⟩ := Option.bind_eq_some_iff.mp h
      cases h
      obtain ⟨hyears, hmonth, hday⟩ := Date.ofParts?_eq_some_iff.mp hdate
      obtain ⟨hhour, hminute, hsecond⟩ := Clock.ofParts?_eq_some_iff.mp hclock
      refine ⟨written, by omega, ?_, ?_⟩
      · rw [hyears, digits_four _ _ hyear, ← hflat, List.flatMap_cons, List.flatMap_cons,
          List.append_assoc]
      · rw [append_drop_defaults hfew, hmonth, hday, hhour, hminute, hsecond]
    · cases h
  · intro ⟨written, h⟩
    have hfew := h.length_le
    have hlength := h.length_eq
    have hfields := h.fields
    rw [append_drop_defaults hfew] at hfields
    simp only [List.cons.injEq, and_true] at hfields
    obtain ⟨hmonth, hday, hhour, hminute, hsecond⟩ := hfields
    have hdate : Date.ofParts? (date.year / 100 * 100 + date.year % 100) (written.getD 0 1)
        (written.getD 1 1) = some date :=
      Date.ofParts?_eq_some_iff.mpr ⟨by omega, hmonth.symm, hday.symm⟩
    have hclock : Clock.ofParts? (written.getD 2 0) (written.getD 3 0) (written.getD 4 0) =
        some clock := Clock.ofParts?_eq_some_iff.mpr ⟨hhour.symm, hminute.symm, hsecond.symm⟩
    refine ⟨by omega, ?_⟩
    rw [readFields?, h.pairs_eq]
    simp only [hdate, hclock, Option.bind_eq_bind, Option.bind_some]
    rfl

/-! ## Offsets -/

theorem closes_iff {mode : Mode} {closing : List Char} : closes mode closing = true ↔
    closing = ['\''] ∨ mode = .relaxed ∧ (closing = [] ∨ closing = ['\'', '\'']) := by
  simp [closes]

/-- What is left after the hours of an offset. -/
theorem readMinutes?_eq_some_iff {mode : Mode} {west : Bool} {hours : Nat} {rest : List Char}
    {o : Offset} : readMinutes? mode west hours rest = some o ↔
      (o.west = west ∧ o.hours = hours) ∧
        (o.minutes = 0 ∧ (rest = [] ∨ rest = ['\'']) ∨ ∃ closing, closes mode closing = true ∧
          rest = '\'' :: (digits 2 o.minutes ++ closing)) := by
  unfold readMinutes?
  split
  · rw [Offset.ofParts?_eq_some_iff]
    simp [and_assoc]
  · rw [Offset.ofParts?_eq_some_iff]
    simp [digits_two, and_assoc]
  · rename_i text hne
    rw [Option.bind_eq_bind, Option.bind_eq_some_iff]
    constructor
    · intro ⟨⟨minutes, closing⟩, htwo, hread⟩
      obtain ⟨-, rfl⟩ := twoDigits?_eq_some_iff.mp htwo
      dsimp only at hread
      split at hread
      · rename_i hcloses
        obtain ⟨hwest, hhours, rfl⟩ := Offset.ofParts?_eq_some_iff.mp hread
        exact ⟨⟨hwest, hhours⟩, .inr ⟨closing, hcloses, rfl⟩⟩
      · cases hread
    · intro ⟨⟨hwest, hhours⟩, hrest⟩
      rcases hrest with ⟨-, hnil | hone⟩ | ⟨closing, hcloses, heq⟩
      · cases hnil
      · exact absurd (List.cons.inj hone).2 hne
      · obtain rfl := (List.cons.inj heq).2
        have hlt := o.minutes_lt
        refine ⟨(o.minutes, closing), twoDigits?_eq_some_iff.mpr ⟨by omega, rfl⟩, ?_⟩
        exact (if_pos hcloses).trans (Offset.ofParts?_eq_some_iff.mpr ⟨hwest, hhours, rfl⟩)
  · rename_i hnil hone hmore
    refine ⟨nofun, fun ⟨_, hrest⟩ => ?_⟩
    rcases hrest with ⟨-, rfl | rfl⟩ | ⟨closing, -, rfl⟩
    · exact absurd rfl hnil
    · exact absurd rfl hone
    · exact absurd rfl (hmore _)

theorem readHours?_eq_some_iff {mode : Mode} {west : Bool} {tail : List Char} {o : Offset} :
    readHours? mode west tail = some o ↔ o.west = west ∧ WritesDistance mode o tail := by
  constructor
  · intro h
    obtain ⟨⟨hours, rest⟩, htwo, hminutes⟩ := Option.bind_eq_some_iff.mp h
    obtain ⟨-, rfl⟩ := twoDigits?_eq_some_iff.mp htwo
    obtain ⟨⟨hwest, rfl⟩, ⟨hzero, hclosing⟩ | ⟨closing, hcloses, rfl⟩⟩ :=
      readMinutes?_eq_some_iff.mp hminutes
    · exact ⟨hwest, .hours hzero hclosing⟩
    · exact ⟨hwest, .minutes (closes_iff.mp hcloses)⟩
  · intro ⟨hwest, h⟩
    have hlt := o.hours_lt
    have htwo (rest : List Char) : twoDigits? (digits 2 o.hours ++ rest) = some (o.hours, rest) :=
      twoDigits?_eq_some_iff.mpr ⟨by omega, rfl⟩
    cases h with
    | hours hzero hclosing =>
      refine Option.bind_eq_some_iff.mpr ⟨_, htwo _, ?_⟩
      exact readMinutes?_eq_some_iff.mpr ⟨⟨hwest, rfl⟩, .inl ⟨hzero, hclosing⟩⟩
    | minutes hclosing =>
      refine Option.bind_eq_some_iff.mpr ⟨_, htwo _, ?_⟩
      exact readMinutes?_eq_some_iff.mpr ⟨⟨hwest, rfl⟩, .inr ⟨_, closes_iff.mpr hclosing, rfl⟩⟩

theorem readOffset?_eq_some_iff {mode : Mode} {tail : List Char} {o : Offset} :
    readOffset? mode tail = some o ↔ WritesOffset mode o tail := by
  constructor
  · intro h
    unfold readOffset? at h
    split at h
    · cases h
      exact .nothing
    · split at h
      · rename_i hrest
        cases h
        refine .universal ?_
        simpa using hrest
      · cases h
    · obtain ⟨hwest, hdistance⟩ := readHours?_eq_some_iff.mp h
      have hsign : o.sign = '+' := by rw [Offset.sign, hwest]; rfl
      exact hsign ▸ .signed hdistance
    · obtain ⟨hwest, hdistance⟩ := readHours?_eq_some_iff.mp h
      have hsign : o.sign = '-' := by rw [Offset.sign, hwest]; rfl
      exact hsign ▸ .signed hdistance
    · cases h
  · intro h
    cases h with
    | nothing => rfl
    | universal hrest =>
      refine if_pos ?_
      simpa using hrest
    | signed hdistance =>
      cases hwest : o.west with
      | false =>
        rw [Offset.sign, hwest]
        exact readHours?_eq_some_iff.mpr ⟨hwest, hdistance⟩
      | true =>
        rw [Offset.sign, hwest]
        exact readHours?_eq_some_iff.mpr ⟨hwest, hdistance⟩

/-! ## Whole texts -/

/-- No offset begins with a digit. -/
theorem WritesOffset.takeWhile_eq {mode : Mode} {o : Offset} {tail : List Char}
    (h : WritesOffset mode o tail) : tail.takeWhile Char.isDigit = [] := by
  cases h with
  | nothing => rfl
  | universal _ => rfl
  | signed _ =>
    unfold Offset.sign
    split <;> rfl

theorem exists_marker_of_body? {mode : Mode} {text body : List Char}
    (h : body? mode text = some body) : ∃ marker, Marker mode marker ∧ text = marker ++ body := by
  unfold body? at h
  split at h
  · cases h
    exact ⟨['D', ':'], .given, rfl⟩
  · split at h
    · rename_i hrelaxed
      cases h
      exact ⟨[], .missing hrelaxed, rfl⟩
    · cases h

/-- Digits are not taken for a marker. -/
theorem Marker.body?_append {mode : Mode} {marker body : List Char} (h : Marker mode marker)
    {first : Char} (hfirst : first.isDigit = true) :
    body? mode (marker ++ first :: body) = some (first :: body) := by
  cases h with
  | given => rfl
  | missing hrelaxed =>
    unfold body?
    split
    · rename_i rest heq
      obtain ⟨rfl, -⟩ := List.cons.inj heq
      cases hfirst
    · exact if_pos hrelaxed

theorem of_guard {p : Prop} [Decidable p] {u : Unit} (h : (guard p : Option Unit) = some u) :
    p := by
  by_contra hnot
  cases h.symm.trans (if_neg hnot)

/-- A text is read as a moment exactly if it writes this moment. -/
theorem readText?_eq_some_iff {mode : Mode} {text : List Char} {t : Timestamp} :
    readText? mode text = some t ↔ Written mode t text := by
  constructor
  · intro h
    obtain ⟨body, hbody, h⟩ := Option.bind_eq_some_iff.mp h
    obtain ⟨_, hguard, h⟩ := Option.bind_eq_some_iff.mp h
    obtain ⟨⟨date, clock⟩, hfields, h⟩ := Option.bind_eq_some_iff.mp h
    obtain ⟨offset, hoffset, h⟩ := Option.bind_eq_some_iff.mp h
    cases h
    obtain ⟨marker, hmarker, rfl⟩ := exists_marker_of_body? hbody
    have hdigits : ∀ c ∈ body.takeWhile Char.isDigit, c.isDigit = true :=
      fun c hc => List.mem_takeWhile_imp hc
    obtain ⟨written, hwritten⟩ :=
      (readFields?_eq_some_iff hdigits).mp ⟨of_guard hguard, hfields⟩
    have htext : Written mode ⟨date, clock, offset⟩ _ :=
      .mk hmarker hwritten (readOffset?_eq_some_iff.mp hoffset)
    rwa [List.append_assoc, List.takeWhile_append_dropWhile] at htext
  · intro h
    obtain @⟨marker, fields, tail, written, hmarker, hwritten, hoffset⟩ := h
    have hdigits := hwritten.isDigit
    have hlength := hwritten.length_eq
    -- the digits of the text end where the offset begins, which has none at its beginning
    have htake : (fields ++ tail).takeWhile Char.isDigit = fields := by
      rw [List.takeWhile_append_of_pos hdigits, hoffset.takeWhile_eq, List.append_nil]
    have hdrop : (fields ++ tail).dropWhile Char.isDigit = tail := by
      have hsplit : tail.takeWhile Char.isDigit ++ tail.dropWhile Char.isDigit = tail :=
        List.takeWhile_append_dropWhile
      rwa [hoffset.takeWhile_eq, List.nil_append, ← List.dropWhile_append_of_pos hdigits] at hsplit
    obtain ⟨hguard, hfields⟩ := (readFields?_eq_some_iff hdigits).mpr ⟨written, hwritten⟩
    obtain ⟨first, more, rfl⟩ : ∃ first more, fields = first :: more :=
      List.exists_cons_of_length_pos (by omega)
    have hbody : body? mode (marker ++ (first :: more) ++ tail) = some (first :: more ++ tail) := by
      rw [List.append_assoc]
      exact hmarker.body?_append (hdigits first List.mem_cons_self)
    refine Option.bind_eq_some_iff.mpr ⟨_, hbody, ?_⟩
    rw [htake, hdrop]
    refine Option.bind_eq_some_iff.mpr ⟨(), if_pos hguard, ?_⟩
    refine Option.bind_eq_some_iff.mpr ⟨_, hfields, ?_⟩
    exact Option.bind_eq_some_iff.mpr ⟨_, readOffset?_eq_some_iff.mpr hoffset, rfl⟩

end Timestamp

end PdfConformance

import PdfConformance.Proofs.Leniency
import PdfConformance.Proofs.Text.WellFormed
import PdfConformance.Proofs.Timestamp.Grammar

/-! # What octets are date strings

`read?_iff_written`: octets are read as a moment exactly if they are those of a text that writes it,
with any blank characters before and after. The text has none itself, so that it is what is left
when they are trimmed. -/

namespace PdfConformance

/-! ## Blank characters at the ends -/

namespace Text

/-- What is trimmed is blank. -/
theorem exists_blanks_around_trim (chars : List Char) : ∃ front back,
    (∀ c ∈ front ++ back, isBlank c = true) ∧ chars = front ++ trim chars ++ back := by
  have hrest : (chars.dropWhile isBlank).reverse.takeWhile isBlank ++ (trim chars).reverse =
      (chars.dropWhile isBlank).reverse := by
    rw [trim, List.reverse_reverse, List.takeWhile_append_dropWhile]
  refine ⟨chars.takeWhile isBlank,
    ((chars.dropWhile isBlank).reverse.takeWhile isBlank).reverse, ?_, ?_⟩
  · intro c hc
    rcases List.mem_append.mp hc with hc | hc
    · exact List.mem_takeWhile_imp hc
    · exact List.mem_takeWhile_imp (List.mem_reverse.mp hc)
  · have htrimmed := congrArg List.reverse hrest
    rw [List.reverse_append, List.reverse_reverse, List.reverse_reverse] at htrimmed
    rw [List.append_assoc, htrimmed, List.takeWhile_append_dropWhile]

theorem dropWhile_isBlank_of_not {first : Char} {rest : List Char} (h : isBlank first = false) :
    (first :: rest).dropWhile isBlank = first :: rest :=
  List.dropWhile_cons_of_neg (by simp [h])

/-- Trimming finds a text without blanks between blanks. -/
theorem trim_append {front text back : List Char} (hblank : ∀ c ∈ front ++ back, isBlank c = true)
    (htext : ∀ c ∈ text, isBlank c = false) (hne : text ≠ []) :
    trim (front ++ text ++ back) = text := by
  obtain ⟨hfront, hback⟩ := List.forall_mem_append.mp hblank
  have hreverse : ∀ c ∈ text.reverse, isBlank c = false :=
    fun c hc => htext c (List.mem_reverse.mp hc)
  have hbackwards : ∀ c ∈ back.reverse, isBlank c = true :=
    fun c hc => hback c (List.mem_reverse.mp hc)
  -- from either end the first character that is not blank is one of the text
  obtain ⟨first, rest, rfl⟩ := List.exists_cons_of_ne_nil hne
  obtain ⟨last, more, hlast⟩ := List.exists_cons_of_ne_nil (List.reverse_ne_nil_iff.mpr hne)
  have hfirst : isBlank first = false := htext first List.mem_cons_self
  have hfinal : isBlank last = false := hreverse last (hlast ▸ List.mem_cons_self)
  rw [trim, List.append_assoc, List.dropWhile_append_of_pos hfront, List.cons_append,
    dropWhile_isBlank_of_not hfirst, ← List.cons_append, List.reverse_append,
    List.dropWhile_append_of_pos hbackwards, hlast, dropWhile_isBlank_of_not hfinal, ← hlast,
    List.reverse_reverse]

/-- No visible character of ASCII is blank. -/
theorem isBlank_eq_false_of_graphic {c : Char} (hge : 0x20 < c.toNat) (hlt : c.toNat < 0x7F) :
    isBlank c = false := by
  refine Bool.eq_false_iff.mpr fun hblank => ?_
  have hmem : c.toNat ∈ blanks := List.contains_iff_mem.mp hblank
  have houtside : ∀ n ∈ blanks, n ≤ 0x20 ∨ 0x7F ≤ n := by decide
  have := houtside c.toNat hmem
  omega

end Text

namespace Timestamp

variable {mode : Mode} {t : Timestamp} {text : List Char}

theorem Marker.isBlank_eq_false {marker : List Char} (h : Marker mode marker) :
    ∀ c ∈ marker, Text.isBlank c = false := by
  cases h with
  | given => exact List.forall_mem_cons.mpr ⟨rfl, List.forall_mem_singleton.mpr rfl⟩
  | missing _ => nofun

theorem isBlank_eq_false_of_isDigit {c : Char} (h : c.isDigit = true) : Text.isBlank c = false := by
  obtain ⟨hge, hle⟩ := isDigit_iff.mp h
  exact Text.isBlank_eq_false_of_graphic (by omega) (by omega)

theorem isBlank_eq_false_of_mem_digits (width n : Nat) :
    ∀ c ∈ digits width n, Text.isBlank c = false :=
  fun _ hc => isBlank_eq_false_of_isDigit (isDigit_of_mem_digits hc)

theorem WritesDistance.isBlank_eq_false {o : Offset} {distance : List Char}
    (h : WritesDistance mode o distance) : ∀ c ∈ distance, Text.isBlank c = false := by
  cases h with
  | hours _ hclosing =>
    refine List.forall_mem_append.mpr ⟨isBlank_eq_false_of_mem_digits 2 o.hours, ?_⟩
    rcases hclosing with rfl | rfl
    · nofun
    · exact List.forall_mem_singleton.mpr rfl
  | minutes hclosing =>
    refine List.forall_mem_append.mpr ⟨isBlank_eq_false_of_mem_digits 2 o.hours, ?_⟩
    refine List.forall_mem_cons.mpr ⟨rfl, ?_⟩
    refine List.forall_mem_append.mpr ⟨isBlank_eq_false_of_mem_digits 2 o.minutes, ?_⟩
    rcases hclosing with rfl | ⟨-, rfl | rfl⟩
    · exact List.forall_mem_singleton.mpr rfl
    · nofun
    · exact List.forall_mem_cons.mpr ⟨rfl, List.forall_mem_singleton.mpr rfl⟩

theorem WritesOffset.isBlank_eq_false {o : Offset} {tail : List Char}
    (h : WritesOffset mode o tail) : ∀ c ∈ tail, Text.isBlank c = false := by
  cases h with
  | nothing => nofun
  | universal hrest =>
    refine List.forall_mem_cons.mpr ⟨rfl, fun c hc => ?_⟩
    rcases hrest with rfl | ⟨-, hrest⟩
    · cases hc
    · rcases hrest c hc with rfl | rfl <;> rfl
  | signed hdistance =>
    refine List.forall_mem_cons.mpr ⟨?_, hdistance.isBlank_eq_false⟩
    unfold Offset.sign
    split <;> rfl

theorem Written.isBlank_eq_false (h : Written mode t text) :
    ∀ c ∈ text, Text.isBlank c = false := by
  obtain ⟨hmarker, hfields, htail⟩ := h
  rw [List.append_assoc]
  exact List.forall_mem_append.mpr ⟨hmarker.isBlank_eq_false, List.forall_mem_append.mpr
    ⟨fun c hc => isBlank_eq_false_of_isDigit (hfields.isDigit c hc), htail.isBlank_eq_false⟩⟩

theorem Written.ne_nil (h : Written mode t text) : text ≠ [] := by
  obtain ⟨hmarker, hfields, htail⟩ := h
  have hlength := hfields.length_eq
  refine List.ne_nil_of_length_pos ?_
  simp only [List.length_append]
  omega

theorem read?_eq_some_iff {raw : Bytes} : read? mode raw = some t ↔
    ∃ front text back, raw = Text.Utf8.encode (String.ofList (front ++ text ++ back)) ∧
      (∀ c ∈ front ++ back, Text.isBlank c = true) ∧ Written mode t text := by
  constructor
  · intro h
    obtain ⟨chars, hchars, h⟩ := Option.bind_eq_some_iff.mp h
    obtain ⟨front, back, hblank, heq⟩ := Text.exists_blanks_around_trim chars
    refine ⟨front, Text.trim chars, back, ?_, hblank, readText?_eq_some_iff.mp h⟩
    rw [← heq]
    exact Text.Utf8.decode?_eq_some_iff.mp hchars
  · intro ⟨front, text, back, hraw, hblank, hwritten⟩
    refine Option.bind_eq_some_iff.mpr ⟨_, Text.Utf8.decode?_eq_some_iff.mpr hraw, ?_⟩
    rw [Text.trim_append hblank hwritten.isBlank_eq_false hwritten.ne_nil]
    exact readText?_eq_some_iff.mpr hwritten

/-- Octets are read as a moment exactly if they write it, between blanks; what strict mode reads
means the same in relaxed mode. The offset counts its hours and minutes in its direction. -/
theorem read?_iff_written :
    (∀ mode raw t, read? mode raw = some t ↔ ∃ front text back,
      raw = Text.Utf8.encode (String.ofList (front ++ text ++ back)) ∧
        (∀ c ∈ front ++ back, Text.isBlank c = true) ∧ Written mode t text) ∧
    (∀ raw t, read? .strict raw = some t → read? .relaxed raw = some t) ∧
    (∀ o : Offset, o.seconds = (if o.west then -1 else 1) * (3600 * o.hours + 60 * o.minutes)) ∧
    Offset.universal.seconds = 0 := by
  refine ⟨fun _ _ _ => read?_eq_some_iff, fun _ _ => read?_relaxed, fun o => ?_, rfl⟩
  simp only [Offset.seconds]
  split <;> omega

/-- A leap day between blanks, without its marker and with half of its apostrophes. -/
theorem read?_leapDay : ∃ t : Timestamp, t.render = "D:20240229180000-05'30'".toList ∧
    read? .relaxed (Text.Utf8.encode
      (String.ofList (['\u00A0'] ++ "2024022918-05'30".toList ++ ['\n']))) = some t ∧
    t.offset.seconds = -19800 := by
  have hblank : ∀ c ∈ ['\u00A0'] ++ ['\n'], Text.isBlank c = true :=
    List.forall_mem_cons.mpr ⟨rfl, List.forall_mem_singleton.mpr rfl⟩
  refine ⟨⟨⟨2024, 2, 29, by decide, by decide, by decide, by decide⟩,
    ⟨18, 0, 0, by decide, by decide, by decide⟩, ⟨true, 5, 30, by decide, by decide⟩⟩, rfl, ?_, ?_⟩
  · refine (read?_iff_written.1 _ _ _).mpr ⟨_, "2024022918-05'30".toList, _, rfl, hblank, ?_⟩
    exact @Written.mk .relaxed _ [] "2024022918".toList "-05'30".toList [2, 29, 18] (.missing rfl)
      ⟨by decide, rfl, rfl⟩ (.signed (@WritesDistance.minutes .relaxed _ [] (.inr ⟨rfl, .inl rfl⟩)))
  · exact (read?_iff_written.2.2.1 _).trans rfl

end Timestamp

end PdfConformance

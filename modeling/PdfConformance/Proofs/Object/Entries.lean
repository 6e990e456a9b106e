import PdfConformance.Proofs.Inquiry.Likeness
import PdfConformance.Proofs.Object.Indirection

/-! # Dictionaries that differ in one entry

An entry that is set, or removed, leaves what stands under every other key. What filters a stream
declares is told by one entry, so that a header declares the same with and without any other entry,
and with and without one that declares nothing. -/

namespace PdfConformance

namespace Dict

/-- Without the entries under the key. -/
def without (d : Dict) (key : Bytes) : Dict := d.filter fun entry => entry.1 ≠ key

/-- The same stands under every key but one. -/
def SameBeside (key : Bytes) (d d' : Dict) : Prop :=
  ∀ other, other ≠ key → get? d' other = get? d other

variable {d d' d'' : Dict} {key : Bytes} {stored : Object}

theorem get?_without (d : Dict) (key other : Bytes) :
    get? (without d key) other = if other = key then none else get? d other := by
  induction d with
  | nil => simp [without]
  | cons entry d ih =>
    unfold without at ih ⊢
    by_cases hkey : entry.1 = key
    · rw [List.filter_cons_of_neg (by simp [hkey]), ih, get?_cons, hkey]
      split <;> rfl
    · rw [List.filter_cons_of_pos (by simp [hkey]), get?_cons, get?_cons, ih]
      by_cases hother : other = entry.1
      · simp [hother, hkey]
      · simp [hother]

@[simp] theorem get?_without_self (d : Dict) (key : Bytes) : get? (without d key) key = none := by
  rw [get?_without, if_pos rfl]

@[simp] theorem get?_set_self (d : Dict) (key : Bytes) (stored : Object) :
    get? (set d key stored) key = some stored := by
  rw [get?_set, if_pos rfl]

/-- Setting an entry to what it is changes nothing. -/
theorem set_of_get? (h : get? d key = some stored) : set d key stored = d := by
  induction d with
  | nil => cases h
  | cons entry d ih =>
    rw [get?_cons] at h
    by_cases hkey : key = entry.1
    · rw [if_pos hkey] at h
      cases h
      rw [set, if_pos hkey.symm, hkey]
    · rw [if_neg hkey] at h
      rw [set, if_neg (Ne.symm hkey), ih h]

theorem sameBeside_without (d : Dict) (key : Bytes) : SameBeside key d (without d key) := by
  intro other hother
  rw [get?_without, if_neg hother]

theorem sameBeside_set (d : Dict) (key : Bytes) (stored : Object) :
    SameBeside key d (set d key stored) := by
  intro other hother
  rw [get?_set, if_neg hother]

namespace SameBeside

protected theorem symm (h : SameBeside key d d') : SameBeside key d' d :=
  fun other hother => (h other hother).symm

protected theorem trans (h : SameBeside key d d') (h' : SameBeside key d' d'') :
    SameBeside key d d'' :=
  fun other hother => (h' other hother).trans (h other hother)

theorem has_eq (h : SameBeside key d d') {other : Bytes} (hother : other ≠ key) :
    has d' other = has d other := by
  unfold has
  rw [h other hother]

theorem sameFilters (h : SameBeside key d d') (hkey : key ≠ Text.Utf8.encode "Filter") :
    Likeness.SameFilters d d' := by
  intro filter
  unfold filteredOnlyBy
  rw [h _ hkey.symm]

end SameBeside

/-- An entry set and removed. -/
theorem sameBeside_without_set (d : Dict) (key : Bytes) (stored : Object) :
    SameBeside key (without d key) (set d key stored) :=
  (sameBeside_without d key).symm.trans (sameBeside_set d key stored)

theorem filteredOnlyBy_of_get?_eq_none (h : get? d (Text.Utf8.encode "Filter") = none)
    (filter : String) : filteredOnlyBy d filter = false := by
  unfold filteredOnlyBy
  rw [h]

/-- What declares no filter is as good as nothing. -/
theorem sameFilters_without_set (h : ¬ stored.IsDeclaration) (d : Dict) (key : Bytes) :
    Likeness.SameFilters (without d key) (set d key stored) := by
  by_cases hkey : key = Text.Utf8.encode "Filter"
  · subst hkey
    intro filter
    rw [Object.filteredOnlyBy_eq_false (get?_set_self d _ stored) h,
      filteredOnlyBy_of_get?_eq_none (get?_without_self d _)]
  · exact (sameBeside_without_set d key stored).sameFilters hkey

end Dict

end PdfConformance

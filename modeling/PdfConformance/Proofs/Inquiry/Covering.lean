import PdfConformance.Proofs.Inquiry.Agreement

/-! # Inquiries that cover others

An inquiry covers another in a document if the other finds no fault where it finds none, and makes
its look-ups in the course of those that it makes: what is judged as a part of the one is judged by
the other alone. -/

namespace PdfConformance.Inquiry

variable {α β γ δ : Type} {find : ObjectId → Option Object}

theorem exists_of_run_bind {x : Inquiry α} {f : α → Inquiry β} {b : β}
    (h : (x >>= f).run find = .ok b) : ∃ a, x.run find = .ok a ∧ (f a).run find = .ok b := by
  rw [run_bind] at h
  cases hx : x.run find with
  | error fault => rw [hx] at h; cases h
  | ok a => exact ⟨a, rfl, by rw [hx] at h; exact h⟩

theorem run_bind_of_run {x : Inquiry α} {a : α} (h : x.run find = .ok a) (f : α → Inquiry β) :
    (x >>= f).run find = (f a).run find := by
  rw [run_bind, h]
  rfl

/-- What comes after may take the result of the first for granted. -/
theorem run_bind_congr {x : Inquiry α} {f g : α → Inquiry β}
    (h : ∀ a, x.run find = .ok a → (f a).run find = (g a).run find) :
    (x >>= f).run find = (x >>= g).run find := by
  rw [run_bind, run_bind]
  cases hx : x.run find with
  | error _ => rfl
  | ok a => exact h a hx

/-- So it may where the caller can cancel in between. -/
theorem verdict_bind_congr {x : Inquiry α} {f g : α → Inquiry β}
    (h : ∀ a, x.run find = .ok a → f a = g a) (patience? : Option Nat) :
    (x >>= f).verdict find patience? = (x >>= g).verdict find patience? := by
  induction x generalizing patience? with
  | done a => exact congrArg (verdict find patience?) (h a rfl)
  | fail fault => rfl
  | pause next ih =>
    rcases patience? with _ | _ | patience
    · exact ih h none
    · rfl
    · exact ih h (some (patience + 1))
  | ask id next ih =>
    rcases patience? with _ | _ | patience
    · exact ih (find id) h none
    · exact ih (find id) h (some 0)
    · exact ih (find id) h (some patience)

/-- A loop ends well if all of its rounds do. -/
theorem run_forM_eq_ok {items : List α} {f : α → Inquiry Unit} :
    (items.forM f).run find = .ok () ↔ ∀ item ∈ items, (f item).run find = .ok () := by
  induction items with
  | nil => exact ⟨fun _ _ h => absurd h List.not_mem_nil, fun _ => rfl⟩
  | cons first items ih =>
    change (f first >>= fun _ => items.forM f).run find = .ok () ↔ _
    rw [List.forall_mem_cons, ← ih]
    constructor
    · intro h
      obtain ⟨_, hfirst, hrest⟩ := exists_of_run_bind h
      exact ⟨hfirst, hrest⟩
    · rintro ⟨hfirst, hrest⟩
      rw [run_bind_of_run hfirst]
      exact hrest

theorem asked_bind_of_run {x : Inquiry α} {a : α} (h : x.run find = .ok a) (f : α → Inquiry β) :
    (x >>= f).asked find = x.asked find ++ (f a).asked find := by
  induction x with
  | done _ => cases h; rfl
  | fail _ => cases h
  | pause _ ih => exact ih h
  | ask id next ih => exact congrArg (id :: ·) (ih (find id) h)

/-- Nothing is asked for after a fault. -/
theorem asked_bind_of_error {x : Inquiry α} {fault : Fault} (h : x.run find = .error fault)
    (f : α → Inquiry β) : (x >>= f).asked find = x.asked find := by
  induction x with
  | done _ => cases h
  | fail _ => rfl
  | pause _ ih => exact ih h
  | ask id next ih => exact congrArg (id :: ·) (ih (find id) h)

/-- The library's law, of the loop that rules and clauses are checked by. -/
theorem forM_append_eq (items more : List α) (f : α → Inquiry Unit) :
    (items ++ more).forM f = items.forM f >>= fun _ => more.forM f :=
  List.forM_append

section Loop

variable {before after : List α} {item : α} {f : α → Inquiry Unit}

/-- Rounds that end well leave the verdict to those after them. -/
theorem run_forM_append (hbefore : ∀ item ∈ before, (f item).run find = .ok ()) :
    ((before ++ after).forM f).run find = (after.forM f).run find := by
  rw [forM_append_eq, run_bind_of_run (run_forM_eq_ok.mpr hbefore)]

/-- A loop ends with the first fault of its rounds. -/
theorem run_forM_of_error {fault : Fault} (hbefore : ∀ item ∈ before, (f item).run find = .ok ())
    (h : (f item).run find = .error fault) :
    ((before ++ item :: after).forM f).run find = .error fault := by
  rw [run_forM_append hbefore]
  show (f item >>= fun _ => after.forM f).run find = .error fault
  rw [run_bind, h]
  rfl

/-- A loop comes to what one of its rounds does, if all others end well. -/
theorem run_forM_of_ok (h : ∀ other ∈ before ++ after, (f other).run find = .ok ()) :
    ((before ++ item :: after).forM f).run find = (f item).run find := by
  obtain ⟨hbefore, hafter⟩ := List.forall_mem_append.mp h
  rw [run_forM_append hbefore]
  show (f item >>= fun _ => after.forM f).run find = (f item).run find
  rw [run_bind, run_forM_eq_ok.mpr hafter]
  cases (f item).run find <;> rfl

end Loop

/-- Where `x` ends well so does `y`, with a result that stands in the relation to that of `x`. What
`y` asks for `x` asks for too, in this order. -/
def Covers (find : ObjectId → Option Object) (R : α → β → Prop) (x : Inquiry α) (y : Inquiry β) :
    Prop :=
  ∀ a, x.run find = .ok a →
    ∃ b, R a b ∧ y.run find = .ok b ∧ (y.asked find).Sublist (x.asked find)

namespace Covers

protected theorem refl (x : Inquiry α) : Covers find Eq x x :=
  fun a h => ⟨a, rfl, h, List.Sublist.refl _⟩

theorem of_error {R : α → β → Prop} {x : Inquiry α} {fault : Fault}
    (h : x.run find = .error fault) (y : Inquiry β) : Covers find R x y := by
  intro a ha
  rw [h] at ha
  cases ha

/-- It may be taken for granted that the first ends well. -/
theorem of_run {R : α → β → Prop} {x : Inquiry α} {y : Inquiry β}
    (h : ∀ a, x.run find = .ok a → Covers find R x y) : Covers find R x y :=
  fun a ha => h a ha a ha

/-- Nothing has to be asked for a result that is at hand. -/
theorem done_right {R : α → β → Prop} {x : Inquiry α} {b : β} (h : ∀ a, R a b) :
    Covers find R x (.done b) :=
  fun a _ => ⟨b, h a, rfl, List.nil_sublist _⟩

theorem mono {R S : α → β → Prop} {x : Inquiry α} {y : Inquiry β} (h : Covers find R x y)
    (hRS : ∀ a b, x.run find = .ok a → R a b → S a b) : Covers find S x y := by
  intro a ha
  obtain ⟨b, hab, hb, hasked⟩ := h a ha
  exact ⟨b, hRS a b ha hab, hb, hasked⟩

protected theorem bind {R : α → β → Prop} {S : γ → δ → Prop} {x : Inquiry α} {y : Inquiry β}
    {f : α → Inquiry γ} {g : β → Inquiry δ} (h : Covers find R x y)
    (hfg : ∀ a b, x.run find = .ok a → R a b → Covers find S (f a) (g b)) :
    Covers find S (x >>= f) (y >>= g) := by
  intro c hc
  obtain ⟨a, ha, hc⟩ := exists_of_run_bind hc
  obtain ⟨b, hab, hb, hasked⟩ := h a ha
  obtain ⟨d, hcd, hd, hasked'⟩ := hfg a b ha hab c hc
  refine ⟨d, hcd, (run_bind_of_run hb g).trans hd, ?_⟩
  rw [asked_bind_of_run ha, asked_bind_of_run hb]
  exact hasked.append hasked'

/-- What only the first does before it comes to cover the second. -/
theorem bind_left {S : γ → β → Prop} {x : Inquiry α} {f : α → Inquiry γ} {y : Inquiry β}
    (h : ∀ a, x.run find = .ok a → Covers find S (f a) y) : Covers find S (x >>= f) y := by
  intro c hc
  obtain ⟨a, ha, hc⟩ := exists_of_run_bind hc
  obtain ⟨b, hcb, hb, hasked⟩ := h a ha c hc
  refine ⟨b, hcb, hb, ?_⟩
  rw [asked_bind_of_run ha]
  exact hasked.trans (List.sublist_append_right _ _)

/-- What only the first does after it has covered the second. -/
theorem then_left {R : α → β → Prop} {S : γ → β → Prop} {x : Inquiry α} {f : α → Inquiry γ}
    {y : Inquiry β} (h : Covers find R x y)
    (hf : ∀ a b c, x.run find = .ok a → R a b → (f a).run find = .ok c → S c b) :
    Covers find S (x >>= f) y := by
  intro c hc
  obtain ⟨a, ha, hc⟩ := exists_of_run_bind hc
  obtain ⟨b, hab, hb, hasked⟩ := h a ha
  refine ⟨b, hf a b c ha hab hc, hb, ?_⟩
  rw [asked_bind_of_run ha]
  exact hasked.trans (List.sublist_append_left _ _)

/-- A loop covers each of its rounds. -/
theorem forM_left {items : List α} {f : α → Inquiry Unit} {item : α} {y : Inquiry Unit}
    (hitem : item ∈ items) (h : Covers find Eq (f item) y) :
    Covers find Eq (items.forM f) y := by
  induction items with
  | nil => cases hitem
  | cons first items ih =>
    change Covers find Eq (f first >>= fun _ => items.forM f) y
    rcases List.mem_cons.mp hitem with rfl | hitem
    · exact h.then_left fun _ _ _ _ _ _ => rfl
    · exact bind_left fun _ _ => ih hitem

/-- The parts of two loops are covered one by one. -/
theorem forM_append {items more : List α} {items' more' : List β} {f : α → Inquiry Unit}
    {g : β → Inquiry Unit} (h : Covers find Eq (items.forM f) (items'.forM g))
    (hmore : Covers find Eq (more.forM f) (more'.forM g)) :
    Covers find Eq ((items ++ more).forM f) ((items' ++ more').forM g) := by
  rw [forM_append_eq, forM_append_eq]
  exact h.bind fun _ _ _ _ => hmore

theorem forM_cons {item : α} {more : List α} {item' : β} {more' : List β} {f : α → Inquiry Unit}
    {g : β → Inquiry Unit} (h : Covers find Eq (f item) (g item'))
    (hmore : Covers find Eq (more.forM f) (more'.forM g)) :
    Covers find Eq ((item :: more).forM f) ((item' :: more').forM g) :=
  h.bind fun _ _ _ _ => hmore

end Covers

/-- Inquiries that agree ask for the same objects, until the first is excused. -/
theorem AgreeUpTo.covers {excused : Fault → Prop} {R : α → β → Prop} {x : Inquiry α} {y : Inquiry β}
    (h : AgreeUpTo excused R x y) : Covers find R x y := by
  induction h with
  | @done a b hab =>
    rintro _ ⟨⟩
    exact ⟨b, hab, rfl, List.Sublist.refl _⟩
  | fail fault => exact .of_error rfl _
  | excused y _ => exact .of_error rfl y
  | pause _ ih => exact ih
  | @ask id _ _ _ ih =>
    intro a ha
    obtain ⟨b, hab, hb, hasked⟩ := ih (find id) a ha
    exact ⟨b, hab, hb, hasked.cons_cons id⟩

end PdfConformance.Inquiry

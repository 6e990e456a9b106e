import PdfConformance.Inquiry

/-! # Inquiries that agree up to excused faults

Two inquiries are walked side by side: they ask for the same objects and pause at the same points,
until both end alike or the first ends at a fault that is excused. From there on the second may go
its own way, so whatever the answers, the verdicts differ only where the first is an excused
fault. -/

namespace PdfConformance.Inquiry

variable {α β γ δ : Type} {excused : Fault → Prop}

inductive AgreeUpTo (excused : Fault → Prop) (R : α → β → Prop) : Inquiry α → Inquiry β → Prop
  | done {a : α} {b : β} : R a b → AgreeUpTo excused R (.done a) (.done b)
  | fail (fault : Fault) : AgreeUpTo excused R (.fail fault) (.fail fault)
  | excused {fault : Fault} (y : Inquiry β) : excused fault → AgreeUpTo excused R (.fail fault) y
  | pause {x : Inquiry α} {y : Inquiry β} :
      AgreeUpTo excused R x y → AgreeUpTo excused R (.pause x) (.pause y)
  | ask {id : ObjectId} {x : Option Object → Inquiry α} {y : Option Object → Inquiry β} :
      (∀ answer, AgreeUpTo excused R (x answer) (y answer)) →
      AgreeUpTo excused R (.ask id x) (.ask id y)

/-- Two places whose faults count alike: they are one place, or every fault is excused. -/
def Interchangeable {π : Type} (excused : Fault → Prop) (a b : π) : Prop :=
  a = b ∨ ∀ fault, excused fault

namespace Interchangeable

variable {π σ : Type}

protected theorem refl (a : π) : Interchangeable excused a a := .inl rfl

/-- What is made of interchangeable places in one way is interchangeable. -/
theorem map {a b : π} (h : Interchangeable excused a b) (f : π → σ) :
    Interchangeable excused (f a) (f b) :=
  h.imp_left (congrArg f)

end Interchangeable

namespace AgreeUpTo

protected theorem refl (x : Inquiry α) : AgreeUpTo excused Eq x x := by
  induction x with
  | done a => exact .done rfl
  | fail fault => exact .fail fault
  | pause _ ih => exact .pause ih
  | ask id _ ih => exact .ask ih

theorem of_eq {x y : Inquiry α} (h : x = y) : AgreeUpTo excused Eq x y := h ▸ .refl x

theorem mono {R S : α → β → Prop} {x : Inquiry α} {y : Inquiry β} (h : AgreeUpTo excused R x y)
    (hRS : ∀ a b, R a b → S a b) : AgreeUpTo excused S x y := by
  induction h with
  | done hab => exact .done (hRS _ _ hab)
  | fail fault => exact .fail fault
  | excused _ hf => exact .excused _ hf
  | pause _ ih => exact .pause ih
  | ask _ ih => exact .ask ih

protected theorem bind {R : α → β → Prop} {S : γ → δ → Prop} {x : Inquiry α} {y : Inquiry β}
    {f : α → Inquiry γ} {g : β → Inquiry δ} (h : AgreeUpTo excused R x y)
    (hfg : ∀ a b, R a b → AgreeUpTo excused S (f a) (g b)) :
    AgreeUpTo excused S (x >>= f) (y >>= g) := by
  induction h with
  | done hab => exact hfg _ _ hab
  | fail fault => exact .fail fault
  | excused _ hf => exact .excused _ hf
  | pause _ ih => exact .pause ih
  | ask _ ih => exact .ask ih

/-- Inquiries that agree on the result they go on with. -/
theorem bind_eq {S : γ → δ → Prop} {x y : Inquiry α} {f : α → Inquiry γ} {g : α → Inquiry δ}
    (h : AgreeUpTo excused Eq x y) (hfg : ∀ a, AgreeUpTo excused S (f a) (g a)) :
    AgreeUpTo excused S (x >>= f) (y >>= g) :=
  h.bind fun a _ hab => hab ▸ hfg a

theorem forM {items : List α} {f g : α → Inquiry Unit}
    (h : ∀ item ∈ items, AgreeUpTo excused Eq (f item) (g item)) :
    AgreeUpTo excused Eq (items.forM f) (items.forM g) := by
  induction items with
  | nil => exact .refl _
  | cons item items ih =>
    change AgreeUpTo excused Eq (f item >>= fun _ => items.forM f)
      (g item >>= fun _ => items.forM g)
    refine (h item List.mem_cons_self).bind_eq fun _ => ?_
    exact ih fun other hother => h other (List.mem_cons_of_mem item hother)

/-- A condition may be lifted where its fault is excused. -/
theorem require {condition lenient : Bool} {fault : Fault} (hexcused : excused fault)
    (h : condition = true → lenient = true) :
    AgreeUpTo excused Eq (Inquiry.require condition fault) (Inquiry.require lenient fault) := by
  cases condition with
  | true => rw [h rfl]; exact .refl _
  | false => exact .excused _ hexcused

/-- A fault that is found at one place or the other. -/
theorem failAt {π : Type} {R : α → β → Prop} {a b : π} (h : Interchangeable excused a b)
    (fault : π → Fault) : AgreeUpTo excused R (.fail (fault a)) (.fail (fault b)) := by
  rcases h with rfl | hall
  · exact .fail _
  · exact .excused _ (hall _)

/-- A condition that is held against one place or the other. -/
theorem requireAt {π : Type} {a b : π} (h : Interchangeable excused a b) (condition : Bool)
    (fault : π → Fault) :
    AgreeUpTo excused Eq (Inquiry.require condition (fault a))
      (Inquiry.require condition (fault b)) := by
  cases condition with
  | true => exact .refl _
  | false => exact .failAt h fault

theorem run_eq {x y : Inquiry α} (h : AgreeUpTo excused Eq x y)
    (find : ObjectId → Option Object) :
    y.run find = x.run find ∨ ∃ fault, x.run find = .error fault ∧ excused fault := by
  induction h with
  | done hab => rw [hab]; exact .inl rfl
  | fail fault => exact .inl rfl
  | excused _ hf => exact .inr ⟨_, rfl, hf⟩
  | pause _ ih => exact ih
  | @ask id _ _ _ ih => exact ih (find id)

theorem runWithin_eq {x y : Inquiry α} (h : AgreeUpTo excused Eq x y)
    (find : ObjectId → Option Object) (patience : Nat) :
    y.runWithin find patience = x.runWithin find patience ∨
      ∃ fault, x.runWithin find patience = .error fault ∧ excused fault := by
  induction h generalizing patience with
  | done hab => rw [hab]; exact .inl rfl
  | fail fault => exact .inl rfl
  | excused _ hf => exact .inr ⟨_, by cases patience <;> rfl, hf⟩
  | pause _ ih =>
    cases patience with
    | zero => exact .inl rfl
    | succ patience => exact ih (patience + 1)
  | @ask id _ _ _ ih => cases patience <;> exact ih (find id) _

/-- The verdicts differ only where the first is an excused fault. -/
theorem verdict_eq {x y : Inquiry α} (h : AgreeUpTo excused Eq x y)
    (find : ObjectId → Option Object) (patience? : Option Nat) :
    y.verdict find patience? = x.verdict find patience? ∨
      ∃ fault, x.verdict find patience? = .error fault ∧ excused fault := by
  cases patience? with
  | none => exact h.run_eq find
  | some patience => exact h.runWithin_eq find patience

end AgreeUpTo

end PdfConformance.Inquiry

import PdfConformance.Fault
import PdfConformance.Object

/-! # Inquiries

A judgement that may look objects up is a tree: it is done, it has found a fault, it gives its
caller a chance to cancel, or it asks for an object and goes on with the answer. `run` answers from
an object table. `runWithin` also lets the caller's patience end: after `patience` look-ups the next
chance to cancel is taken. -/

namespace PdfConformance

inductive Inquiry (α : Type) where
  | done (result : α)
  | fail (fault : Fault)
  | pause (next : Inquiry α)
  | ask (id : ObjectId) (next : Option Object → Inquiry α)

namespace Inquiry

variable {α β : Type}

protected def bind : Inquiry α → (α → Inquiry β) → Inquiry β
  | done a, f => f a
  | fail fault, _ => fail fault
  | pause next, f => pause (next.bind f)
  | ask id next, f => ask id fun answer => (next answer).bind f

instance : Monad Inquiry where
  pure := done
  bind := Inquiry.bind

@[simp] theorem pure_eq (a : α) : (pure a : Inquiry α) = done a := rfl

@[simp] theorem done_bind (a : α) (f : α → Inquiry β) : done a >>= f = f a := rfl

@[simp] theorem fail_bind (fault : Fault) (f : α → Inquiry β) : fail fault >>= f = fail fault := rfl

@[simp] theorem pause_bind (x : Inquiry α) (f : α → Inquiry β) :
    pause x >>= f = pause (x >>= f) := rfl

@[simp] theorem ask_bind (id : ObjectId) (next : Option Object → Inquiry α) (f : α → Inquiry β) :
    ask id next >>= f = ask id fun answer => next answer >>= f := rfl

instance : LawfulMonad Inquiry :=
  LawfulMonad.mk' Inquiry
    (fun x => by
      change x >>= (fun a => done a) = x
      induction x with
      | done _ => rfl
      | fail _ => rfl
      | pause _ ih => exact congrArg pause ih
      | ask id _ ih => exact congrArg (ask id) (funext ih))
    (fun _ _ => rfl)
    (fun x f g => by
      induction x with
      | done _ => rfl
      | fail _ => rfl
      | pause _ ih => exact congrArg pause ih
      | ask id _ ih => exact congrArg (ask id) (funext ih))

def ofExcept : Except Fault α → Inquiry α
  | .ok a => done a
  | .error fault => fail fault

/-- A condition, with the fault it is not to meet. -/
def require (condition : Bool) (fault : Fault) : Inquiry Unit :=
  if condition then done () else fail fault

/-- The verdict when `find` answers and nobody cancels. -/
def run (find : ObjectId → Option Object) : Inquiry α → Except Fault α
  | done a => .ok a
  | fail fault => .error fault
  | pause next => next.run find
  | ask id next => (next (find id)).run find

/-- The verdict when the caller cancels after `patience` look-ups. -/
def runWithin (find : ObjectId → Option Object) : Nat → Inquiry α → Except Fault α
  | _, done a => .ok a
  | _, fail fault => .error fault
  | 0, pause _ => .error .cancelled
  | patience + 1, pause next => next.runWithin find (patience + 1)
  | patience, ask id next => (next (find id)).runWithin find (patience - 1)

/-- The verdict for a caller whose patience may be without end. -/
def verdict (find : ObjectId → Option Object) : Option Nat → Inquiry α → Except Fault α
  | none, x => x.run find
  | some patience, x => x.runWithin find patience

/-- The ids asked for in a run that nobody cancels, in order. -/
def asked (find : ObjectId → Option Object) : Inquiry α → List ObjectId
  | done _ => []
  | fail _ => []
  | pause next => next.asked find
  | ask id next => id :: (next (find id)).asked find

@[simp] theorem run_bind (find : ObjectId → Option Object) (x : Inquiry α) (f : α → Inquiry β) :
    (x >>= f).run find = x.run find >>= fun a => (f a).run find := by
  induction x with
  | done _ => rfl
  | fail _ => rfl
  | pause _ ih => exact ih
  | ask id _ ih => exact ih (find id)

/-- A verdict depends only on the answers to what is asked. -/
theorem run_congr {find find' : ObjectId → Option Object} {x : Inquiry α}
    (h : ∀ id ∈ x.asked find, find id = find' id) : x.run find = x.run find' := by
  induction x with
  | done _ => rfl
  | fail _ => rfl
  | pause _ ih => exact ih h
  | ask id next ih =>
    have hid := h id List.mem_cons_self
    have := ih (find id) fun other ho => h other (List.mem_cons_of_mem _ ho)
    simpa only [run, ← hid] using this

end Inquiry

end PdfConformance

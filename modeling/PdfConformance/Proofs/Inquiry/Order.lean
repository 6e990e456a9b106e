import PdfConformance.Inquiry
import PdfConformance.Proofs.Object.Graph

/-! # Orderly inquiries

An inquiry is orderly on certain terms if it asks only for objects that are in its field of view,
ends in the faults and results that are expected of it, and gives its caller exactly one chance to
cancel before each look-up, and one more only where it gives up on a chain of references. What is in
view is closed under parts and references, so the terms are kept from a container to what is judged
in it. -/

namespace PdfConformance

/-- The fault of a chain of references that is given up. -/
def Fault.atHops : Fault → Bool
  | endless _ _ _ .hops => true
  | _ => false

/-- What an inquiry is held to: where its answers come from, which objects are in view, and the
faults it may end in. -/
structure Terms where
  find : ObjectId → Option Object
  held : Object → Prop
  held_part : ∀ {container part : Object}, held container → part ∈ container.parts → held part
  held_stored : ∀ {id : ObjectId} {stored : Object}, held (.reference id) →
    find id = some stored → held stored
  fault : Fault → Prop

namespace Terms

variable {t : Terms}

/-- A dictionary or a stream with these entries is in view. -/
def Header (t : Terms) (header : Dict) : Prop :=
  t.held (.dictionary header) ∨ t.held (.stream header)

theorem Header.held_part {header : Dict} {part : Object} (h : t.Header header)
    (hpart : part ∈ header.map Prod.snd) : t.held part := by
  rcases h with h | h
  · exact t.held_part h hpart
  · exact t.held_part h hpart

theorem held_of_stands {stored value : Object} (h : t.held stored)
    (hstands : Stands t.find stored value) : t.held value := by
  induction hstands with
  | direct _ => exact h
  | through hfind _ _ ih => exact ih (t.held_stored h hfind)

end Terms

namespace Inquiry

variable {α β : Type} {t : Terms} {result : α → Prop}

inductive Orderly (t : Terms) (result : α → Prop) : Inquiry α → Prop
  | done {a : α} : result a → Orderly t result (.done a)
  | fail {fault : Fault} : t.fault fault → fault.atHops = false → Orderly t result (.fail fault)
  | ask {id : ObjectId} {next : Option Object → Inquiry α} : t.held (.reference id) →
      Orderly t result (next (t.find id)) → Orderly t result (.pause (.ask id next))
  | giveUp {fault : Fault} : t.fault fault → fault.atHops = true →
      Orderly t result (.pause (.fail fault))

namespace Orderly

protected theorem bind {result' : β → Prop} {x : Inquiry α} {f : α → Inquiry β}
    (h : Orderly t result x) (hf : ∀ a, result a → Orderly t result' (f a)) :
    Orderly t result' (x >>= f) := by
  induction h with
  | done ha => exact hf _ ha
  | fail hfault hhops => exact .fail hfault hhops
  | ask hheld _ ih => exact .ask hheld ih
  | giveUp hfault hhops => exact .giveUp hfault hhops

theorem mono {result' : α → Prop} {x : Inquiry α} (h : Orderly t result x)
    (hresult : ∀ a, result a → result' a) : Orderly t result' x := by
  induction h with
  | done ha => exact .done (hresult _ ha)
  | fail hfault hhops => exact .fail hfault hhops
  | ask hheld _ ih => exact .ask hheld ih
  | giveUp hfault hhops => exact .giveUp hfault hhops

theorem require {condition : Bool} {fault : Fault} (hhops : fault.atHops = false)
    (hfault : condition = false → t.fault fault) :
    Orderly t (fun _ => condition = true) (Inquiry.require condition fault) := by
  cases condition with
  | true => exact .done rfl
  | false => exact .fail (hfault rfl) hhops

theorem forM {items : List α} {f : α → Inquiry Unit}
    (h : ∀ item ∈ items, Orderly t (fun _ => True) (f item)) :
    Orderly t (fun _ => True) (items.forM f) := by
  induction items with
  | nil => exact .done trivial
  | cons item items ih =>
    change Orderly t _ (f item >>= fun _ => items.forM f)
    refine (h item List.mem_cons_self).bind fun _ _ => ?_
    exact ih fun other hother => h other (List.mem_cons_of_mem item hother)

theorem result_of_run {x : Inquiry α} {a : α} (h : Orderly t result x)
    (hrun : x.run t.find = .ok a) : result a := by
  induction h with
  | done ha => cases hrun; exact ha
  | fail _ _ => cases hrun
  | ask _ _ ih => exact ih hrun
  | giveUp _ _ => cases hrun

theorem fault_of_run {x : Inquiry α} {fault : Fault} (h : Orderly t result x)
    (hrun : x.run t.find = .error fault) : t.fault fault := by
  induction h with
  | done _ => cases hrun
  | fail hfault _ => cases hrun; exact hfault
  | ask _ _ ih => exact ih hrun
  | giveUp hfault _ => cases hrun; exact hfault

theorem fault_of_runWithin {x : Inquiry α} {patience : Nat} {fault : Fault}
    (h : Orderly t result x) (hrun : x.runWithin t.find patience = .error fault) :
    fault = .cancelled ∨ t.fault fault := by
  induction h generalizing patience with
  | done _ => cases patience <;> cases hrun
  | fail hfault _ => cases patience <;> cases hrun <;> exact .inr hfault
  | ask _ _ ih =>
    cases patience with
    | zero => cases hrun; exact .inl rfl
    | succ patience => exact ih hrun
  | giveUp hfault _ =>
    cases patience with
    | zero => cases hrun; exact .inl rfl
    | succ patience => cases hrun; exact .inr hfault

/-- The fault of a verdict is one of the terms, unless the caller cancelled. -/
theorem fault_of_verdict {x : Inquiry α} {patience? : Option Nat} {fault : Fault}
    (h : Orderly t result x) (hverdict : x.verdict t.find patience? = .error fault) :
    fault = .cancelled ∨ t.fault fault := by
  cases patience? with
  | none => exact .inr (h.fault_of_run hverdict)
  | some patience => exact h.fault_of_runWithin hverdict

end Orderly

end Inquiry

end PdfConformance

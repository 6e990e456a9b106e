import PdfConformance.Proofs.Question

/-! # A circle is reported only where there is one

The trail that guards a walk against going round in circles holds the references by which the
containers around the present one were entered. Each of them leads to whatever is referred to in the
present one, so that one that is met again lies on a circle of references; an object that merely
occurs in several places does not. -/

namespace PdfConformance

open Inquiry

variable {find : ObjectId → Option Object} {object : Object} {maxDepth : Nat}

/-- An id that the object reaches and that references lead back to. -/
def ReachedCircle (find : ObjectId → Option Object) (object : Object) (id : ObjectId) : Prop :=
  Reaches find object id ∧ OnCircle find id

/-- Why a walk of this depth may report that it would be endless. -/
def Fault.EndlessFor (find : ObjectId → Option Object) (object : Object) (maxDepth : Nat) :
    Fault → Prop
  | endless _ id? depth .hops =>
    depth = maxHops ∨ ∃ id, id? = some id ∧ ReachedCircle find object id
  | endless _ id? _ .cycle => ∃ id, id? = some id ∧ ReachedCircle find object id
  | endless _ _ depth .depth => depth = maxDepth
  | _ => True

/-- The object and what it reaches is in view. -/
def circleTerms (find : ObjectId → Option Object) (object : Object) (maxDepth : Nat) : Terms where
  find
  held := fun value => ∀ id ∈ value.ids, Reaches find object id
  held_part := fun h hpart id hid => h id (Object.mem_ids_of_mem_parts hpart hid)
  held_stored := fun h hfind id hid => (h _ (by simp [Object.ids])).refers ⟨_, hfind, hid⟩
  fault := Fault.EndlessFor find object maxDepth

theorem circleTerms_admits (p : Profile) : (circleTerms find object maxDepth).Admits p := by
  intro fault htells
  cases htells with
  | hops site hheld hwhy =>
    rcases hwhy with hhops | hcircle
    · exact .inl hhops
    · exact .inr ⟨_, rfl, hheld _ (by simp [Object.ids]), hcircle⟩
  | _ => trivial

/-- The objects on the trail lead to whatever the stored value refers to. -/
def Trail.LeadsTo (find : ObjectId → Option Object) (trail : Trail) (stored : Object) : Prop :=
  ∀ id ∈ trail.within, ∀ other ∈ stored.ids, Relation.TransGen (Refers find) id other

theorem Trail.LeadsTo.push {trail : Trail} {stored value part : Object}
    (h : trail.LeadsTo find stored) (hstands : Stands find stored value)
    (hpart : part ∈ value.parts) : (trail.push stored).LeadsTo find part := by
  intro id hid other hother
  have hvalue : other ∈ value.ids := Object.mem_ids_of_mem_parts hpart hother
  rcases Trail.mem_within_push.mp hid with rfl | hwithin
  · exact hstands.transGen_reference other hvalue
  · exact hstands.transGen (h id hwithin) other hvalue

theorem Trail.LeadsTo.onCircle {trail : Trail} {stored : Object} (h : trail.LeadsTo find stored)
    (hrevisits : trail.revisits stored = true) :
    ∃ id, stored = .reference id ∧ OnCircle find id := by
  cases stored with
  | reference id =>
    have hwithin : id ∈ trail.within := by simpa using hrevisits
    exact ⟨id, rfl, h id hwithin id (by simp [Object.ids])⟩
  | _ => cases hrevisits

def circleInvariant (find : ObjectId → Option Object) (object : Object) (maxDepth : Nat) :
    (circleTerms find object maxDepth).Invariant where
  holds := fun levels trail stored =>
    trail.depth + levels = maxDepth ∧ trail.LeadsTo find stored
  stop := by
    rintro levels trail stored site hheld ⟨hdepth, hlead⟩ hwhy
    unfold Trail.stop
    cases hrevisits : trail.revisits stored with
    | true =>
      obtain ⟨id, rfl, hcircle⟩ := hlead.onCircle hrevisits
      exact ⟨id, rfl, hheld id (by simp [Object.ids]), hcircle⟩
    | false =>
      have hlevels : levels = 0 := by simpa [hrevisits] using hwhy
      change trail.depth = maxDepth
      omega
  push := by
    rintro levels trail stored value part ⟨hdepth, hlead⟩ _ hstands hpart
    have hdepth' : (trail.push stored).depth + levels = maxDepth := by
      change trail.depth + 1 + levels = maxDepth
      omega
    exact ⟨hdepth', hlead.push hstands hpart⟩

/-- A question is answered from what its object reaches. -/
theorem Question.orderly_circle (question : Question) (find : ObjectId → Option Object) (p : Profile)
    (maxDepth : Nat) (object : Object) :
    Orderly (circleTerms find object maxDepth) (fun _ => True)
      (question.inquiry p maxDepth object) :=
  question.orderly (circleTerms_admits p) (circleInvariant find object maxDepth)
    (fun _ hid => .occurs hid) ⟨Nat.zero_add maxDepth, fun _ hid => by cases hid⟩

theorem endlessFor_of_outcome {question : Question} {doc : Document} {p : Profile}
    {patience? : Option Nat} {fault : Fault}
    (h : question.outcome doc p maxDepth patience? object = .error fault) :
    fault.EndlessFor doc.get? object maxDepth := by
  have horderly := question.orderly_circle doc.get? p maxDepth object
  rcases horderly.fault_of_verdict h with rfl | hfault
  · trivial
  · exact hfault

/-- A walk that reports to be endless below its limits has met an id on a circle of references.
Where no such id is reached, only the limits themselves are reported. -/
theorem onCircle_of_endless {question : Question} {doc : Document} {p : Profile} {maxDepth : Nat}
    {patience? : Option Nat} {object : Object} {site : Site} {id? : Option ObjectId} {depth : Nat}
    {bound : Bound}
    (h : question.outcome doc p maxDepth patience? object =
      .error (.endless site id? depth bound)) :
    (depth ≠ maxHops → depth ≠ maxDepth →
      ∃ id, id? = some id ∧ Reaches doc.get? object id ∧ OnCircle doc.get? id) ∧
    ((∀ id, Reaches doc.get? object id → ¬ OnCircle doc.get? id) →
      bound = .hops ∧ depth = maxHops ∨ bound = .depth ∧ depth = maxDepth) := by
  have hwhy := endlessFor_of_outcome h
  cases bound with
  | hops =>
    refine ⟨fun hhops _ => hwhy.resolve_left hhops, fun hnone => .inl ⟨rfl, ?_⟩⟩
    rcases hwhy with hhops | ⟨id, -, hreaches, hcircle⟩
    · exact hhops
    · exact absurd hcircle (hnone id hreaches)
  | cycle =>
    obtain ⟨id, hid, hreaches, hcircle⟩ := hwhy
    exact ⟨fun _ _ => ⟨id, hid, hreaches, hcircle⟩, fun hnone => absurd hcircle (hnone id hreaches)⟩
  | depth => exact ⟨fun _ hdepth => absurd hwhy hdepth, fun _ => .inr ⟨rfl, hwhy⟩⟩

/-- An image that is its own soft mask. -/
def selfMasked : Document where
  header := "1.7"
  trailer := []
  objects := .ofList [(⟨1, 0⟩, .stream [
    (Text.Utf8.encode "Subtype", .name (Text.Utf8.encode "Image")),
    (Text.Utf8.encode "Width", .integer 1),
    (Text.Utf8.encode "Height", .integer 1),
    (Text.Utf8.encode "ImageMask", .boolean true),
    (Text.Utf8.encode "SMask", .reference ⟨1, 0⟩)])]

theorem onCircle_selfMasked :
    (Question.external .any).outcome selfMasked ⟨.v1_7, .strict⟩ 64 none (.reference ⟨1, 0⟩) =
        .error (.endless ⟨"imageStream", "SMask"⟩ (some ⟨1, 0⟩) 1 .cycle) ∧
      OnCircle selfMasked.get? ⟨1, 0⟩ := by
  have houtcome : (Question.external .any).outcome selfMasked ⟨.v1_7, .strict⟩ 64 none
      (.reference ⟨1, 0⟩) =
        .error (.endless ⟨"imageStream", "SMask"⟩ (some ⟨1, 0⟩) 1 .cycle) := by rfl
  obtain ⟨id, hid, -, hcircle⟩ := (onCircle_of_endless houtcome).1 (by decide) (by decide)
  cases hid
  exact ⟨houtcome, hcircle⟩

end PdfConformance

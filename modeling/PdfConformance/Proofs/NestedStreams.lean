import Mathlib.Data.Finite.Prod
import Mathlib.Data.Set.Finite.Lattice
import Mathlib.Order.WellFounded
import PdfConformance.Proofs.Cancellation
import PdfConformance.Proofs.Judgement.Descent

/-! # Streams within streams

`Nests` is the relation of a stream to the streams it is drawn with: the masks and the alternates of
an image, and the external objects that the resources of a form name. A stream that is accepted has
had all of them judged with fewer levels to go, so that no chain of nested streams is longer than the
limit on depth. A stream nests finitely many others; hence chains of every length are a chain without
end. -/

namespace PdfConformance

open Inquiry

/-! ## Chains of a relation -/

section Chains

variable {α : Type} {r : α → α → Prop} {a : α}

/-- There is a chain of this many steps. -/
def Lasts (r : α → α → Prop) : Nat → α → Prop
  | 0, _ => True
  | n + 1, a => ∃ b, r a b ∧ Lasts r n b

def Endless (r : α → α → Prop) (a : α) : Prop :=
  ∃ chain : Nat → α, chain 0 = a ∧ ∀ n, r (chain n) (chain (n + 1))

theorem Lasts.mono {m n : Nat} (hle : m ≤ n) (h : Lasts r n a) : Lasts r m a := by
  induction m generalizing n a with
  | zero => trivial
  | succ m ih =>
    cases n with
    | zero => omega
    | succ n =>
      obtain ⟨b, hab, hb⟩ := h
      exact ⟨b, hab, ih (by omega) hb⟩

theorem Endless.lasts (h : Endless r a) (n : Nat) : Lasts r n a := by
  induction n generalizing a with
  | zero => trivial
  | succ n ih =>
    obtain ⟨chain, rfl, hchain⟩ := h
    exact ⟨chain 1, hchain 0, ih ⟨fun i => chain (i + 1), rfl, fun i => hchain (i + 1)⟩⟩

/-- Where steps lead to finitely many places, chains that all come to an end are of bounded length:
one step leaves finitely many bounds to take the largest of. -/
theorem exists_not_lasts (hfinite : ∀ a, {b | r a b}.Finite) (h : ¬ Endless r a) :
    ∃ n, ¬ Lasts r n a := by
  have hacc : Acc (fun b a => r a b) a := by
    by_contra hnot
    exact h (not_acc_iff_exists_descending_chain.mp hnot)
  clear h
  induction hacc with
  | intro a _ ih =>
    choose! bound hbound using ih
    obtain ⟨n, hn⟩ := ((hfinite a).image bound).bddAbove
    refine ⟨n + 1, ?_⟩
    intro hlasts
    obtain ⟨b, hab, hb⟩ := hlasts
    exact hbound b hab (hb.mono (hn (Set.mem_image_of_mem bound hab)))

theorem endless_iff_lasts (hfinite : ∀ a, {b | r a b}.Finite) :
    Endless r a ↔ ∀ n, Lasts r n a := by
  refine ⟨Endless.lasts, fun hlasts => ?_⟩
  by_contra hends
  obtain ⟨n, hn⟩ := exists_not_lasts hfinite hends
  exact hn (hlasts n)

end Chains

/-! ## Nested streams -/

/-- A stream by its header, with the schema that it is judged by. -/
abbrev JudgedStream := Schema × Dict

/-- A stream that is judged by the schema is taken for an image. -/
inductive Schema.TakesForImage (find : ObjectId → Option Object) (p : Profile) :
    Schema → Dict → Prop
  | image {use : ImageUse} {header : Dict} : TakesForImage find p (.image use) header
  | external {hint : Hint} {header : Dict} : (designate p hint header).run find = .ok .image →
      TakesForImage find p (.external hint) header

/-- The streams that a stream is drawn with, references to them followed. -/
inductive Nests (find : ObjectId → Option Object) (p : Profile) : JudgedStream → JudgedStream → Prop
  | softMask {schema : Schema} {header inner : Dict} : schema.TakesForImage find p header →
      Yields find header "SMask" (.stream inner) →
      Nests find p (schema, header) (.image .softMask, inner)
  | mask {schema : Schema} {header inner : Dict} : schema.TakesForImage find p header →
      Yields find header "Mask" (.stream inner) →
      Nests find p (schema, header) (.image .explicitMask, inner)
  | alternate {schema : Schema} {header inner : Dict} {items : List Object} {item : Object} :
      schema.TakesForImage find p header → Yields find header "Alternates" (.array items) →
      item ∈ items → Stands find item (.stream inner) →
      Nests find p (schema, header) (.image .alternate, inner)
  | alternateImage {schema : Schema} {header entries inner : Dict} {items : List Object}
      {item : Object} :
      schema.TakesForImage find p header → Yields find header "Alternates" (.array items) →
      item ∈ items → Stands find item (.dictionary entries) →
      Yields find entries "Image" (.stream inner) →
      Nests find p (schema, header) (.image .alternate, inner)
  | member {hint : Hint} {header resources members inner : Dict} {key : Bytes} {stored : Object} :
      (designate p hint header).run find = .ok .form →
      Yields find header "Resources" (.dictionary resources) →
      Yields find resources "XObject" (.dictionary members) →
      (key, stored) ∈ members → Stands find stored (.stream inner) →
      Nests find p (.external hint, header) (.external .any, inner)

variable {find : ObjectId → Option Object} {p : Profile}

/-! ## Finitely many -/

/-- What the stored values stand for. -/
def standing (find : ObjectId → Option Object) (stored : List Object) : Set Object :=
  {value | ∃ part ∈ stored, Stands find part value}

theorem finite_standing (find : ObjectId → Option Object) (stored : List Object) :
    (standing find stored).Finite := by
  have hunion : standing find stored =
      ⋃ part ∈ {part | part ∈ stored}, {value | Stands find part value} := by
    ext value
    simp [standing]
  rw [hunion]
  refine (List.finite_toSet stored).biUnion fun part _ => ?_
  exact Set.Subsingleton.finite fun value hvalue other hother => hother.unique hvalue

theorem Yields.mem_standing {header : Dict} {key : String} {value : Object}
    (h : Yields find header key value) : value ∈ standing find (header.map Prod.snd) := by
  obtain ⟨-, stored, hget, hstands⟩ := h
  exact ⟨stored, Dict.mem_values_of_get? hget, hstands⟩

/-- What the parts of the values stand for. -/
def below (find : ObjectId → Option Object) (values : Set Object) : Set Object :=
  ⋃ value ∈ values, standing find value.parts

theorem finite_below {values : Set Object} (h : values.Finite) : (below find values).Finite :=
  h.biUnion fun value _ => finite_standing find value.parts

theorem mem_below {values : Set Object} {container value : Object} (hcontainer : container ∈ values)
    (h : value ∈ standing find container.parts) : value ∈ below find values :=
  Set.mem_biUnion hcontainer h

/-- A nested stream stands at most three containers deep: in a member of the external objects of the
resources, and in the dictionary of an alternate. -/
theorem finite_nests (find : ObjectId → Option Object) (p : Profile) (a : JudgedStream) :
    {b | Nests find p a b}.Finite := by
  obtain ⟨schema, header⟩ := a
  let near := standing find (header.map Prod.snd)
  let deep := near ∪ (below find near ∪ below find (below find near))
  have hnear : near.Finite := finite_standing find _
  have hdeep : deep.Finite :=
    hnear.union ((finite_below hnear).union (finite_below (finite_below hnear)))
  have hstreams : (Set.preimage Object.stream deep).Finite :=
    hdeep.preimage fun _ _ _ _ heq => Object.stream.inj heq
  let schemas : Set Schema :=
    {.image .softMask, .image .explicitMask, .image .alternate, .external .any}
  have hschemas : schemas.Finite := Set.toFinite schemas
  refine (hschemas.prod hstreams).subset ?_
  intro b hb
  cases hb with
  | softMask _ hyields => exact ⟨by simp [schemas], .inl hyields.mem_standing⟩
  | mask _ hyields => exact ⟨by simp [schemas], .inl hyields.mem_standing⟩
  | alternate _ hyields hitem hstands =>
    exact ⟨by simp [schemas], .inr (.inl (mem_below hyields.mem_standing ⟨_, hitem, hstands⟩))⟩
  | alternateImage _ hyields hitem hstands hinner =>
    refine ⟨by simp [schemas], .inr (.inr ?_)⟩
    exact mem_below (mem_below hyields.mem_standing ⟨_, hitem, hstands⟩) hinner.mem_standing
  | member _ hresources hexternals hmember hstands =>
    refine ⟨by simp [schemas], .inr (.inr ?_)⟩
    refine mem_below (mem_below hresources.mem_standing hexternals.mem_standing) ?_
    exact ⟨_, List.mem_map_of_mem hmember, hstands⟩

/-! ## Judged with fewer levels to go -/

/-- The stream is judged and accepted with this many levels to go. -/
def Accepted (find : ObjectId → Option Object) (p : Profile) (levels : Nat) (a : JudgedStream) :
    Prop :=
  ∃ trail, (judge p (deeper p levels trail) a.1 (.stream a.2)).run find = .ok ()

section Images

variable {use : ImageUse} {header inner : Dict} {levels : Nat} {trail : Trail}
  {items : List Object} {item : Object}

/-- One of the two sheets for an image of this use is the one it has been held to. -/
theorem exists_image_applies (find : ObjectId → Option Object) (p : Profile) (use : ImageUse)
    (header : Dict) :
    ∃ stencil, (Schema.image use).Applies find p (.stream header) (Grammar.image use stencil)
      header := by
  by_cases hyields : Yields find header Grammar.imageMask.key (.boolean true)
  · exact ⟨true, .image (by simp [hyields])⟩
  · exact ⟨false, .image (by simp [hyields])⟩

theorem accepted_softMask
    (hrun : (judge p (deeper p levels trail) (.image use) (.stream header)).run find = .ok ())
    (hyields : Yields find header "SMask" (.stream inner)) :
    ∃ less, less < levels ∧ Accepted find p less (.image .softMask, inner) := by
  obtain ⟨stencil, happlies⟩ := exists_image_applies find p use header
  have hclause : .enter (Rule.optional "SMask" .stream |> Rule.since .v1_4) (.image .softMask) ∈
      (Grammar.image use stencil).clauses := by simp [Grammar.image]
  have hleads := Schema.Leads.clause happlies hclause (.enter hyields rfl)
  obtain ⟨less, trail₁, hless, hinner⟩ := hleads.run_deeper hrun
  exact ⟨less, by omega, trail₁, hinner⟩

/-- Only an image that may be masked has a mask and is accepted. -/
theorem accepted_mask
    (hrun : (judge p (deeper p levels trail) (.image use) (.stream header)).run find = .ok ())
    (hyields : Yields find header "Mask" (.stream inner)) :
    ∃ less, less < levels ∧ Accepted find p less (.image .explicitMask, inner) := by
  obtain ⟨stencil, happlies⟩ := exists_image_applies find p use header
  have hclause : Grammar.maskClause use stencil ∈ (Grammar.image use stencil).clauses := by
    simp [Grammar.image]
  have hkept := run_forM_eq_ok.mp (happlies.run hrun) _ hclause
  -- a stencil must have no mask, and the mask of a mask is barred
  unfold Grammar.maskClause at hclause hkept
  split at hclause
  · rename_i hstencil
    rw [if_pos hstencil] at hkept
    obtain ⟨found?, hcheck, hkept⟩ := exists_of_run_bind hkept
    obtain ⟨entry, rfl, -⟩ := Rule.exists_of_yields hcheck hyields
    cases hkept
  · split at hclause
    · have hleads := Schema.Leads.clause happlies hclause (.enter hyields rfl)
      obtain ⟨less, trail₁, -, hinner⟩ := hleads.run_deeper hrun
      cases hinner
    · have hleads := Schema.Leads.clause happlies hclause (.enter hyields rfl)
      obtain ⟨less, trail₁, hless, hinner⟩ := hleads.run_deeper hrun
      exact ⟨less, by omega, trail₁, hinner⟩

/-- Only a primary image has alternates and is accepted. -/
theorem alternates_of_run
    (hrun : (judge p (deeper p levels trail) (.image use) (.stream header)).run find = .ok ())
    (hyields : Yields find header "Alternates" (.array items)) (hitem : item ∈ items) :
    ∃ less trail₁, less < levels ∧
      (judge p (deeper p less trail₁) .alternates (.array items)).run find = .ok () := by
  obtain ⟨stencil, happlies⟩ := exists_image_applies find p use header
  have hclause : Grammar.alternatesClause use ∈ (Grammar.image use stencil).clauses := by
    simp [Grammar.image]
  have hkept := run_forM_eq_ok.mp (happlies.run hrun) _ hclause
  unfold Grammar.alternatesClause at hclause hkept
  split at hclause
  · have hleads := Schema.Leads.clause happlies hclause (.enter hyields rfl)
    obtain ⟨less, trail₁, hless, halternates⟩ := hleads.run_deeper hrun
    exact ⟨less, trail₁, by omega, halternates⟩
  · rename_i hnested
    rw [if_neg hnested] at hkept
    obtain ⟨found?, hcheck, hkept⟩ := exists_of_run_bind hkept
    obtain ⟨entry, rfl, hvalue⟩ := Rule.exists_of_yields hcheck hyields
    cases items with
    | nil => cases hitem
    | cons first rest => simp [hvalue, Object.isEmptyArray, Inquiry.require, run] at hkept

theorem accepted_alternate
    (hrun : (judge p (deeper p levels trail) (.image use) (.stream header)).run find = .ok ())
    (hyields : Yields find header "Alternates" (.array items)) (hitem : item ∈ items)
    (hstands : Stands find item (.stream inner)) :
    ∃ less, less < levels ∧ Accepted find p less (.image .alternate, inner) := by
  obtain ⟨less, trail₁, hless, halternates⟩ := alternates_of_run hrun hyields hitem
  obtain ⟨index, hindex⟩ := List.getElem?_of_mem hitem
  have hleads : Schema.alternates.Leads find p (.array items) _ _ _ := .alternateStream hindex hstands
  obtain ⟨least, trail₂, hleast, hinner⟩ := hleads.run_deeper halternates
  exact ⟨least, by omega, trail₂, hinner⟩

theorem accepted_alternateImage {entries : Dict}
    (hrun : (judge p (deeper p levels trail) (.image use) (.stream header)).run find = .ok ())
    (hyields : Yields find header "Alternates" (.array items)) (hitem : item ∈ items)
    (hstands : Stands find item (.dictionary entries))
    (hinner : Yields find entries "Image" (.stream inner)) :
    ∃ less, less < levels ∧ Accepted find p less (.image .alternate, inner) := by
  obtain ⟨less, trail₁, hless, halternates⟩ := alternates_of_run hrun hyields hitem
  obtain ⟨index, hindex⟩ := List.getElem?_of_mem hitem
  have hleads : Schema.alternates.Leads find p (.array items) _ _ _ :=
    .alternateDictionary hindex hstands
  obtain ⟨lesser, trail₂, hlesser, hentries⟩ := hleads.run_deeper halternates
  have hclause : .enter (Rule.required "Image" .stream) (.image .alternate) ∈
      Grammar.alternateImage.clauses := by simp [Grammar.alternateImage]
  have himage := Schema.Leads.clause (p := p) .alternateImage hclause (.enter hinner rfl)
  obtain ⟨least, trail₃, hleast, hrun'⟩ := himage.run_deeper hentries
  exact ⟨least, by omega, trail₃, hrun'⟩

end Images

/-- An external object that is taken for an image and accepted is an accepted primary image. -/
theorem Schema.TakesForImage.run {schema : Schema} {header : Dict} {enter : Enter}
    (h : schema.TakesForImage find p header)
    (hrun : (judge p enter schema (.stream header)).run find = .ok ()) :
    ∃ use, (judge p enter (.image use) (.stream header)).run find = .ok () := by
  cases h with
  | image => exact ⟨_, hrun⟩
  | external himage =>
    obtain ⟨designation, hdesignate, hrun⟩ := exists_of_run_bind hrun
    cases himage.symm.trans hdesignate
    exact ⟨.primary, hrun⟩

theorem accepted_member {hint : Hint} {header resources members inner : Dict} {key : Bytes}
    {stored : Object} {levels : Nat} {trail : Trail}
    (hrun : (judge p (deeper p levels trail) (.external hint) (.stream header)).run find = .ok ())
    (hform : (designate p hint header).run find = .ok .form)
    (hresources : Yields find header "Resources" (.dictionary resources))
    (hexternals : Yields find resources "XObject" (.dictionary members))
    (hmember : (key, stored) ∈ members) (hstands : Stands find stored (.stream inner)) :
    ∃ less, less < levels ∧ Accepted find p less (.external .any, inner) := by
  have hclause : .enter (Rule.optional "Resources" .dictionary |> Rule.since .v1_2) .resources ∈
      Grammar.form.clauses := by simp [Grammar.form]
  have hfirst := Schema.Leads.clause (.form hform) hclause (.enter hresources rfl)
  obtain ⟨less, trail₁, hless, hrun⟩ := hfirst.run_deeper hrun
  have hclause : .enter (Rule.optional "XObject" .dictionary) .externals ∈
      Grammar.resources.clauses := by simp [Grammar.resources]
  have hsecond := Schema.Leads.clause (p := p) .resources hclause (.enter hexternals rfl)
  obtain ⟨lesser, trail₂, hlesser, hrun⟩ := hsecond.run_deeper hrun
  have hthird : Schema.externals.Leads find p (.dictionary members) _ _ _ := .member hmember hstands
  obtain ⟨least, trail₃, hleast, hrun⟩ := hthird.run_deeper hrun
  exact ⟨least, by omega, trail₃, hrun⟩

/-- One step: what a stream nests has been judged, with fewer levels to go. -/
theorem Accepted.nested {levels : Nat} {a b : JudgedStream} (h : Accepted find p levels a)
    (hnests : Nests find p a b) : ∃ less, less < levels ∧ Accepted find p less b := by
  obtain ⟨trail, hrun⟩ := h
  cases hnests with
  | softMask himage hyields =>
    obtain ⟨use, hrun⟩ := himage.run hrun
    exact accepted_softMask hrun hyields
  | mask himage hyields =>
    obtain ⟨use, hrun⟩ := himage.run hrun
    exact accepted_mask hrun hyields
  | alternate himage hyields hitem hstands =>
    obtain ⟨use, hrun⟩ := himage.run hrun
    exact accepted_alternate hrun hyields hitem hstands
  | alternateImage himage hyields hitem hstands hinner =>
    obtain ⟨use, hrun⟩ := himage.run hrun
    exact accepted_alternateImage hrun hyields hitem hstands hinner
  | member hform hresources hexternals hmember hstands =>
    exact accepted_member hrun hform hresources hexternals hmember hstands

/-- A whole chain: it has no more streams than there are levels. -/
theorem Accepted.le_of_lasts {levels n : Nat} {a : JudgedStream} (h : Accepted find p levels a)
    (hlasts : Lasts (Nests find p) n a) : n ≤ levels := by
  induction n generalizing levels a with
  | zero => exact Nat.zero_le levels
  | succ n ih =>
    obtain ⟨b, hab, hb⟩ := hlasts
    obtain ⟨less, hless, hb'⟩ := h.nested hab
    have hle := ih hb' hb
    omega

theorem Accepted.reachable {levels : Nat} {a b : JudgedStream} (h : Accepted find p levels a)
    (hreach : Relation.ReflTransGen (Nests find p) a b) :
    ∃ less, less ≤ levels ∧ Accepted find p less b := by
  induction hreach with
  | refl => exact ⟨levels, Nat.le_refl levels, h⟩
  | tail _ hnests ih =>
    obtain ⟨less, hle, haccepted⟩ := ih
    obtain ⟨lesser, hlt, haccepted'⟩ := haccepted.nested hnests
    exact ⟨lesser, by omega, haccepted'⟩

variable {doc : Document} {hint : Hint} {object : Object} {header : Dict} {maxDepth : Nat}
  {patience? : Option Nat}

theorem accepted_of_outcome (hstands : Stands doc.get? object (.stream header))
    (h : (Question.external hint).outcome doc p maxDepth patience? object = .ok ()) :
    ∃ levels, levels < maxDepth ∧ Accepted doc.get? p levels (.external hint, header) := by
  have hjudges : (Question.external hint).Judges doc.get? p object [] (.external hint)
      (.stream header) := .start hstands rfl
  obtain ⟨levels, trail, hlevels, hrun⟩ := hjudges.run (run_of_verdict h)
  exact ⟨levels, by simp at hlevels; omega, trail, hrun⟩

/-- Where nested streams can be followed without end, or, what is the same, in chains of every
length, there is a fault at every limit. Where there is none every nested stream, at whatever remove,
has been judged and accepted below the limit. -/
theorem endless_nesting_rejected (doc : Document) (p : Profile) (hint : Hint) (object : Object)
    (header : Dict) (hstands : Stands doc.get? object (.stream header)) :
    (Endless (Nests doc.get? p) (.external hint, header) ↔
      ∀ n, Lasts (Nests doc.get? p) n (.external hint, header)) ∧
    (Endless (Nests doc.get? p) (.external hint, header) → ∀ maxDepth patience?, ∃ fault,
      (Question.external hint).outcome doc p maxDepth patience? object = .error fault) ∧
    ∀ maxDepth patience?,
      (Question.external hint).outcome doc p maxDepth patience? object = .ok () →
      ∀ b, Relation.ReflTransGen (Nests doc.get? p) (.external hint, header) b →
        ∃ levels, levels < maxDepth ∧ Accepted doc.get? p levels b := by
  refine ⟨endless_iff_lasts (finite_nests doc.get? p), ?_, ?_⟩
  · -- a chain of one stream more than there are levels would have to be accepted
    intro hendless maxDepth patience?
    cases houtcome : (Question.external hint).outcome doc p maxDepth patience? object with
    | error fault => exact ⟨fault, rfl⟩
    | ok _ =>
      obtain ⟨levels, -, haccepted⟩ := accepted_of_outcome hstands houtcome
      have hle := haccepted.le_of_lasts (hendless.lasts (levels + 1))
      omega
  · intro maxDepth patience? houtcome b hreach
    obtain ⟨levels, hlt, haccepted⟩ := accepted_of_outcome hstands houtcome
    obtain ⟨less, hle, haccepted'⟩ := haccepted.reachable hreach
    exact ⟨less, by omega, haccepted'⟩

/-- A form that draws itself: its resources name an object that refers to the form. -/
def selfDrawn : Document where
  header := "1.7"
  trailer := []
  objects := .ofList [
    (⟨1, 0⟩, .stream header),
    (⟨2, 0⟩, .reference ⟨1, 0⟩)]
where
  members : Dict := [(Text.Utf8.encode "Fm", .reference ⟨2, 0⟩)]
  resources : Dict := [(Text.Utf8.encode "XObject", .dictionary members)]
  header : Dict := [
    (Text.Utf8.encode "Subtype", .name (Text.Utf8.encode "Form")),
    (Text.Utf8.encode "BBox", .array [.integer 0, .integer 0, .integer 1, .integer 1]),
    (Text.Utf8.encode "Resources", .dictionary resources)]

theorem selfDrawn_nests : Nests selfDrawn.get? ⟨.v1_7, .relaxed⟩
    (.external .any, selfDrawn.header) (.external .any, selfDrawn.header) := by
  have hform : (designate ⟨.v1_7, .relaxed⟩ .any selfDrawn.header).run selfDrawn.get? = .ok .form := by
    rfl
  have hstands : Stands selfDrawn.get? (.reference ⟨2, 0⟩) (.stream selfDrawn.header) :=
    .through rfl (by simp) (.through rfl (by simp) (.direct rfl))
  have hresources : Yields selfDrawn.get? selfDrawn.header "Resources"
      (.dictionary selfDrawn.resources) := ⟨by simp, _, rfl, .direct rfl⟩
  have hexternals : Yields selfDrawn.get? selfDrawn.resources "XObject"
      (.dictionary selfDrawn.members) := ⟨by simp, _, rfl, .direct rfl⟩
  exact .member hform hresources hexternals (List.mem_singleton.mpr rfl) hstands

theorem endless_nesting_rejected_selfDrawn :
    Endless (Nests selfDrawn.get? ⟨.v1_7, .relaxed⟩) (.external .any, selfDrawn.header) ∧
      ∀ maxDepth patience?, ∃ fault, (Question.external .any).outcome selfDrawn ⟨.v1_7, .relaxed⟩
        maxDepth patience? (.reference ⟨1, 0⟩) = .error fault := by
  have hstands : Stands selfDrawn.get? (.reference ⟨1, 0⟩) (.stream selfDrawn.header) :=
    .through rfl (by simp) (.direct rfl)
  have hendless : Endless (Nests selfDrawn.get? ⟨.v1_7, .relaxed⟩)
      (.external .any, selfDrawn.header) :=
    ⟨fun _ => (.external .any, selfDrawn.header), rfl, fun _ => selfDrawn_nests⟩
  obtain ⟨-, hrejected, -⟩ := endless_nesting_rejected selfDrawn ⟨.v1_7, .relaxed⟩ .any
    (.reference ⟨1, 0⟩) selfDrawn.header hstands
  exact ⟨hendless, hrejected hendless⟩

end PdfConformance

import PdfConformance.Proofs.Object.Graph

/-! # Values put behind a reference

A value within an object is stored under an id of its own, and a reference to the id takes its
place. The references that lead out of the object lead on from the id as before, so nothing is
reached that was not, and no circle is closed. -/

namespace PdfConformance

namespace Object

/-- The reference to the id is the object, or an element of it. -/
def Shows (id : ObjectId) : Object → Prop
  | .reference other => other = id
  | .array items => .reference id ∈ items
  | _ => False

/-- The second object is the first with a reference to `id` in one place where `value` was. In the
header of a stream that place is not the value of `Filter` nor an element of it. -/
inductive Indirects (value : Object) (id : ObjectId) : Object → Object → Prop
  | here : Indirects value id value (.reference id)
  | item {before after : List Object} {part part' : Object} : Indirects value id part part' →
      Indirects value id (.array (before ++ part :: after)) (.array (before ++ part' :: after))
  | entry {before after : Dict} {key : Bytes} {part part' : Object} :
      Indirects value id part part' →
      Indirects value id (.dictionary (before ++ (key, part) :: after))
        (.dictionary (before ++ (key, part') :: after))
  | header {before after : Dict} {key : Bytes} {part part' : Object} :
      Indirects value id part part' →
      (key = Text.Utf8.encode "Filter" → ¬ part'.Shows id) →
      Indirects value id (.stream (before ++ (key, part) :: after))
        (.stream (before ++ (key, part') :: after))

theorem itemIds_append (items more : List Object) :
    itemIds (items ++ more) = itemIds items ++ itemIds more := by
  induction items with
  | nil => rfl
  | cons item items ih => simp [itemIds, ih]

theorem entryIds_append (entries more : List (Bytes × Object)) :
    entryIds (entries ++ more) = entryIds entries ++ entryIds more := by
  induction entries with
  | nil => rfl
  | cons entry entries ih => simp [entryIds, ih]

variable {value object object' : Object} {id other : ObjectId}

/-- The value was a part of the object, at some depth. -/
theorem Indirects.mem_ids_of_mem_value (h : Indirects value id object object')
    (hother : other ∈ value.ids) : other ∈ object.ids := by
  induction h with
  | here => exact hother
  | item _ ih =>
    rw [ids, itemIds_append, itemIds]
    simp [ih]
  | entry _ ih =>
    rw [ids, entryIds_append, entryIds]
    simp [ih]
  | header _ _ ih =>
    rw [ids, entryIds_append, entryIds]
    simp [ih]

/-- What is found where `middle'` stands for `middle` is `id` or was there. -/
theorem mem_of_mem_replaced {before middle middle' after : List ObjectId}
    (hmiddle : other ∈ middle' → other = id ∨ other ∈ middle)
    (h : other ∈ before ++ (middle' ++ after)) :
    other = id ∨ other ∈ before ++ (middle ++ after) := by
  simp only [List.mem_append] at h ⊢
  rcases h with hbefore | hmem | hafter
  · exact .inr (.inl hbefore)
  · exact (hmiddle hmem).imp_right fun hold => .inr (.inl hold)
  · exact .inr (.inr (.inr hafter))

/-- No other reference has been added. -/
theorem Indirects.mem_ids (h : Indirects value id object object') (hother : other ∈ object'.ids) :
    other = id ∨ other ∈ object.ids := by
  induction h with
  | here => exact .inl (List.mem_singleton.mp hother)
  | item _ ih =>
    rw [ids, itemIds_append, itemIds] at hother ⊢
    exact mem_of_mem_replaced ih hother
  | entry _ ih =>
    rw [ids, entryIds_append, entryIds] at hother ⊢
    exact mem_of_mem_replaced ih hother
  | header _ _ ih =>
    rw [ids, entryIds_append, entryIds] at hother ⊢
    exact mem_of_mem_replaced ih hother

/-- Only a name declares a filter, or an array with a name as its one element. -/
def IsDeclaration (declared : Object) : Prop :=
  ∃ spelling, declared = .name spelling ∨ declared = .array [.name spelling]

theorem filteredOnlyBy_eq_false {header : Dict} {declared : Object}
    (hget : Dict.get? header (Text.Utf8.encode "Filter") = some declared)
    (hnot : ¬ declared.IsDeclaration) (filter : String) :
    Dict.filteredOnlyBy header filter = false := by
  unfold Dict.filteredOnlyBy
  rw [hget]
  split
  · rename_i spelling heq
    cases heq
    exact absurd ⟨spelling, .inl rfl⟩ hnot
  · rename_i spelling heq
    cases heq
    exact absurd ⟨spelling, .inr rfl⟩ hnot
  · rfl

/-- What is not shown by an object was within a container, which declares nothing. -/
theorem Indirects.not_isDeclaration (h : Indirects value id object object')
    (hshows : ¬ object'.Shows id) : ¬ object.IsDeclaration ∧ ¬ object'.IsDeclaration := by
  cases h with
  | here => exact absurd rfl hshows
  | item hpart =>
    cases hpart with
    | here => exact absurd (by simp [Shows]) hshows
    | _ => simp [IsDeclaration, List.append_eq_singleton_iff]
  | _ => simp [IsDeclaration]

theorem get?_replaced (before after : Dict) (key sought : Bytes) (part part' : Object) :
    Dict.get? (before ++ (key, part') :: after) sought =
        Dict.get? (before ++ (key, part) :: after) sought ∨
      sought = key ∧ Dict.get? (before ++ (key, part) :: after) sought = some part ∧
        Dict.get? (before ++ (key, part') :: after) sought = some part' := by
  induction before with
  | nil =>
    rw [List.nil_append, List.nil_append, Dict.get?_cons, Dict.get?_cons]
    by_cases heq : sought = key
    · exact .inr ⟨heq, if_pos heq, if_pos heq⟩
    · exact .inl (by rw [if_neg heq, if_neg heq])
  | cons entry before ih =>
    rw [List.cons_append, List.cons_append, Dict.get?_cons, Dict.get?_cons]
    by_cases heq : sought = entry.1
    · exact .inl (by rw [if_pos heq, if_pos heq])
    · rw [if_neg heq, if_neg heq]
      exact ih

/-- The filters of a stream are read as they are stored, but not from where the value was. -/
theorem Indirects.filteredOnlyBy_eq {before after : Dict} {key : Bytes} {part part' : Object}
    (h : Indirects value id part part')
    (hshows : key = Text.Utf8.encode "Filter" → ¬ part'.Shows id) (filter : String) :
    Dict.filteredOnlyBy (before ++ (key, part') :: after) filter =
      Dict.filteredOnlyBy (before ++ (key, part) :: after) filter := by
  rcases get?_replaced before after key (Text.Utf8.encode "Filter") part part' with
    hsame | ⟨hkey, hold, hnew⟩
  · unfold Dict.filteredOnlyBy
    rw [hsame]
  · obtain ⟨hnot, hnot'⟩ := h.not_isDeclaration (hshows hkey.symm)
    rw [filteredOnlyBy_eq_false hold hnot, filteredOnlyBy_eq_false hnew hnot']

/-- The reference has been put into a container, which refers to all that the value refers to. -/
theorem Indirects.reference? (h : Indirects value id object object') :
    object = value ∧ object' = .reference id ∨
      object.reference? = none ∧ object'.reference? = none := by
  cases h with
  | here => exact .inl ⟨rfl, rfl⟩
  | _ => exact .inr ⟨rfl, rfl⟩

/-- The object is as it was, or the reference has been put in its place or into it. The id did not
occur in it before. -/
structure Alike (value : Object) (id : ObjectId) (object object' : Object) : Prop where
  fresh : id ∉ object.ids
  cause : object' = object ∨ Indirects value id object object'

/-- The object is as it was, or the reference has been put into it. -/
structure Kept (value : Object) (id : ObjectId) (object object' : Object) : Prop
    extends Alike value id object object' where
  same : object'.reference? = object.reference?

theorem Alike.refl (hfresh : id ∉ object.ids) : Alike value id object object := ⟨hfresh, .inl rfl⟩

/-- What stands in the place of an object is a reference only if the object was, to the same id, or
if it is the new reference. -/
theorem Alike.reference? (h : Alike value id object object') :
    object'.reference? = object.reference? ∧ object.reference? ≠ some id ∨
      object = value ∧ object' = .reference id := by
  rcases h.cause with rfl | hindirects
  · refine .inl ⟨rfl, fun hreference => h.fresh ?_⟩
    cases object' with
    | reference other => cases hreference; exact List.mem_singleton.mpr rfl
    | _ => cases hreference
  · rcases hindirects.reference? with hhere | ⟨hold, hnew⟩
    · exact .inr hhere
    · refine .inl ⟨hnew.trans hold.symm, ?_⟩
      rw [hold]
      simp

/-- A reference is kept as it is. -/
theorem Kept.eq_of_reference (h : Kept value id (.reference other) object') :
    object' = .reference other := by
  have hsame := h.same
  cases object' with
  | reference next => cases hsame; rfl
  | _ => cases hsame

end Object

/-- The value is stored under the id, to which nothing has referred, and in one place at most of any
other object the reference to it stands for the value. -/
structure Moved (find find' : ObjectId → Option Object) (value : Object) (id : ObjectId) :
    Prop where
  direct : value.reference? = none
  ne_null : value ≠ .null
  fresh : id ∉ value.ids
  stored : find' id = some value
  kept : ∀ other, other ≠ id → Option.Rel (Object.Kept value id) (find other) (find' other)

namespace Moved

variable {find find' : ObjectId → Option Object} {value object object' : Object}
  {id via other : ObjectId}

/-- What is referred to by way of an id once the value has been moved; by way of the new one, what
the value refers to. -/
def origins (value : Object) (id other : ObjectId) : List ObjectId :=
  if other = id then value.ids else [other]

theorem origins_self (value : Object) (id : ObjectId) : origins value id id = value.ids :=
  if_pos rfl

theorem origins_of_ne (value : Object) (h : other ≠ id) : origins value id other = [other] :=
  if_neg h

/-- The origins of what occurs in an object occurred in it before. -/
theorem origins_subset_ids (h : Object.Alike value id object object')
    (hother : other ∈ object'.ids) : ∀ origin ∈ origins value id other, origin ∈ object.ids := by
  intro origin horigin
  by_cases heq : other = id
  · subst heq
    rw [origins_self] at horigin
    rcases h.cause with rfl | hindirects
    · exact absurd hother h.fresh
    · exact hindirects.mem_ids_of_mem_value horigin
  · rw [origins_of_ne value heq, List.mem_singleton] at horigin
    subst horigin
    rcases h.cause with rfl | hindirects
    · exact hother
    · exact (hindirects.mem_ids hother).resolve_left heq

/-- What the new id refers to is what the value refers to. -/
theorem refers_self (hm : Moved find find' value id) (hrefers : Refers find' id other) :
    other ∈ value.ids ∧ other ≠ id := by
  obtain ⟨stored', hstored', hother⟩ := hrefers
  rw [hm.stored] at hstored'
  cases hstored'
  exact ⟨hother, fun heq => hm.fresh (heq ▸ hother)⟩

/-- Any other id referred to the origins before. -/
theorem refers_origin (hm : Moved find find' value id) (hvia : via ≠ id)
    (hrefers : Refers find' via other) :
    ∀ origin ∈ origins value id other, Refers find via origin := by
  intro origin horigin
  obtain ⟨stored', hstored', hother⟩ := hrefers
  have hkept := hm.kept via hvia
  rw [hstored'] at hkept
  generalize hstored : find via = stored? at hkept
  cases hkept with
  | some hkept => exact ⟨_, hstored, origins_subset_ids hkept.toAlike hother origin horigin⟩

/-- A step of a chain of references leads from the origins of one id to those of the other. -/
theorem origins_of_refers (hm : Moved find find' value id) {P : ObjectId → Prop}
    (hclosed : ∀ {a b}, P a → Refers find a b → P b) (hrefers : Refers find' via other)
    (hvia : ∀ origin ∈ origins value id via, P origin) :
    ∀ origin ∈ origins value id other, P origin := by
  intro origin horigin
  by_cases heq : via = id
  · subst heq
    obtain ⟨hother, hne⟩ := hm.refers_self hrefers
    rw [origins_self] at hvia
    rw [origins_of_ne value hne, List.mem_singleton] at horigin
    exact horigin ▸ hvia other hother
  · have hself : P via := hvia via (by simp [origins_of_ne value heq])
    exact hclosed hself (hm.refers_origin heq hrefers origin horigin)

theorem origins_of_reaches (hm : Moved find find' value id)
    (h : Object.Alike value id object object') (hreaches : Reaches find' object' other) :
    ∀ origin ∈ origins value id other, Reaches find object origin := by
  induction hreaches with
  | occurs hother =>
    intro origin horigin
    exact .occurs (origins_subset_ids h hother origin horigin)
  | through _ hstored hother ih => exact hm.origins_of_refers .refers ⟨_, hstored, hother⟩ ih

theorem origins_of_transGen (hm : Moved find find' value id) (hvia : via ≠ id)
    (hlead : Relation.TransGen (Refers find') via other) :
    ∀ origin ∈ origins value id other, Relation.TransGen (Refers find) via origin := by
  induction hlead with
  | single hrefers =>
    intro origin horigin
    exact .single (hm.refers_origin hvia hrefers origin horigin)
  | tail _ hrefers ih => exact hm.origins_of_refers .tail hrefers ih

/-- Moving a value closes no circle. -/
theorem not_onCircle (hm : Moved find find' value id) (h : Object.Alike value id object object')
    (hacyclic : ∀ other, Reaches find object other → ¬ OnCircle find other)
    (hreaches : Reaches find' object' other) : ¬ OnCircle find' other := by
  have off {via : ObjectId} (hne : via ≠ id) (hreaches : Reaches find' object' via) :
      ¬ OnCircle find' via := by
    intro hcircle
    have hself : via ∈ origins value id via := by simp [origins_of_ne value hne]
    exact hacyclic via (hm.origins_of_reaches h hreaches via hself)
      (hm.origins_of_transGen hne hcircle via hself)
  by_cases heq : other = id
  · subst heq
    intro hcircle
    -- a circle through the new id goes on to an id that the value refers to
    obtain ⟨next, hrefers, hback⟩ := Relation.TransGen.head'_iff.mp hcircle
    have hne := (hm.refers_self hrefers).2
    exact off hne (hreaches.refers hrefers) (Relation.TransGen.tail' hback hrefers)
  · exact off heq hreaches

end Moved

end PdfConformance

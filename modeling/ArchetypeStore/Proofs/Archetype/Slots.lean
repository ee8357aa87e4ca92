import ArchetypeStore.Archetype.Basic
import ArchetypeStore.Proofs.TypeRegistry

/-! # Slots of an archetype

  The table of an archetype inverts the list of its indices. With a registry that knows the
  types under these indices, the slot of a type is its position in the archetype.
-/

namespace ArchetypeStore.Archetype

variable {T : Type}

/-! ### The table -/

/-- Positions that are not among the indices keep what they held. -/
theorem fillSlots_of_not_mem (table : Array (Option Nat)) (start : Nat) {indices : List Nat}
    {index : Nat} (h : index ∉ indices) :
    (fillSlots table start indices)[index]? = table[index]? := by
  induction indices generalizing table start with
  | nil => rfl
  | cons i rest ih =>
    rw [List.mem_cons, not_or] at h
    obtain ⟨hne, hrest⟩ := h
    rw [fillSlots, ih _ _ hrest, Array.getElem?_setIfInBounds_ne (Ne.symm hne)]

theorem fillSlots_of_getElem? {table : Array (Option Nat)} (start : Nat) {indices : List Nat}
    (hnodup : indices.Nodup) {k index : Nat} (hk : indices[k]? = some index)
    (hlt : index < table.size) :
    (fillSlots table start indices)[index]? = some (some (start + k)) := by
  induction indices generalizing table start k with
  | nil => simp at hk
  | cons i rest ih =>
    obtain ⟨hnotin, hrest⟩ := List.nodup_cons.mp hnodup
    rw [fillSlots]
    cases k with
    | zero =>
      cases hk
      rw [fillSlots_of_not_mem _ _ hnotin, Array.getElem?_setIfInBounds_self_of_lt hlt]
      rfl
    | succ k =>
      rw [ih (start + 1) hrest hk (by simpa using hlt)]
      congr 2
      omega

/-- Ascending indices lie below the size of their table. -/
theorem lt_tableSize {indices : List Nat} (h : indices.Pairwise (· < ·)) {index : Nat}
    (hmem : index ∈ indices) : index < (indices.getLast?.map (· + 1)).getD 0 := by
  have hne : indices ≠ [] := List.ne_nil_of_mem hmem
  rw [List.getLast?_eq_some_getLast hne, Option.map_some, Option.getD_some]
  rw [← List.dropLast_concat_getLast hne] at hmem h
  rcases List.mem_append.mp hmem with hfront | hlast
  · have := (List.pairwise_append.mp h).2.2 index hfront _ (List.mem_singleton.mpr rfl)
    omega
  · rw [List.mem_singleton.mp hlast]
    exact Nat.lt_succ_self _

/-- The table leads from an index to its position in the list, and from nothing else. -/
theorem slotTable_eq_some_iff {indices : List Nat} (h : indices.Pairwise (· < ·))
    {index slot : Nat} :
    (slotTable indices)[index]?.join = some slot ↔ indices[slot]? = some index := by
  have hnodup : indices.Nodup := h.imp Nat.ne_of_lt
  -- No index is listed twice, so no entry of the table is written over.
  have hget : ∀ k, indices[k]? = some index → (slotTable indices)[index]?.join = some k := by
    intro k hk
    have hlt := lt_tableSize h (List.mem_of_getElem? hk)
    rw [slotTable, fillSlots_of_getElem? 0 hnodup hk (by simpa using hlt), Nat.zero_add]
    rfl
  constructor
  · intro hslot
    by_cases hmem : index ∈ indices
    · obtain ⟨k, hk⟩ := List.getElem?_of_mem hmem
      have hk' := hget k hk
      rw [hslot] at hk'
      cases hk'
      exact hk
    · rw [slotTable, fillSlots_of_not_mem _ _ hmem, Array.getElem?_replicate] at hslot
      split at hslot <;> cases hslot
  · exact hget slot

/-! ### Well-formed archetypes -/

/-- Columns are ascending by index, and table and types agree with the indices. -/
structure Wf (registry : TypeRegistry T) (a : Archetype T) : Prop where
  ascending : a.indices.Pairwise (· < ·)
  lists : registry.Lists a.indices a.types
  slots : a.slots = slotTable a.indices

theorem Wf.mono {registry registry' : TypeRegistry T} {a : Archetype T}
    (h : a.Wf registry) (hext : registry.Extends registry') : a.Wf registry' :=
  ⟨h.ascending, h.lists.mono hext, h.slots⟩

theorem Wf.types_nodup [ComponentType T] {registry : TypeRegistry T} {a : Archetype T}
    (h : a.Wf registry) (hreg : registry.Wf) : a.types.Nodup :=
  (hreg.nodup_iff h.lists).mp (h.ascending.imp Nat.ne_of_lt)

/-- The slot of a type is its position among the columns. -/
theorem Wf.slot?_eq_some_iff [DecidableEq T] [ComponentType T] {registry : TypeRegistry T}
    {a : Archetype T} (h : a.Wf registry) (hreg : registry.Wf) {t : T} {slot : Nat} :
    a.slot? registry t = some slot ↔ a.types[slot]? = some t := by
  rw [slot?, Option.bind_eq_some_iff]
  simp only [slotOf?, h.slots, slotTable_eq_some_iff h.ascending, hreg.index?_eq_some_iff]
  constructor
  · rintro ⟨index, htype, hindex⟩
    obtain ⟨t', ht', hindex'⟩ := h.lists.getElem? hindex
    rw [htype] at hindex'
    cases hindex'
    exact ht'
  · intro ht
    have hlt := (List.getElem?_eq_some_iff.mp ht).1
    rw [← h.lists.length] at hlt
    have hindex := List.getElem?_eq_getElem hlt
    obtain ⟨t', ht', htype⟩ := h.lists.getElem? hindex
    rw [ht] at ht'
    cases ht'
    exact ⟨_, htype, hindex⟩

theorem Wf.slot?_eq_none_iff [DecidableEq T] [ComponentType T] {registry : TypeRegistry T}
    {a : Archetype T} (h : a.Wf registry) (hreg : registry.Wf) {t : T} :
    a.slot? registry t = none ↔ t ∉ a.types := by
  constructor
  · intro hnone hmem
    obtain ⟨slot, hslot⟩ := List.getElem?_of_mem hmem
    rw [(h.slot?_eq_some_iff hreg).mpr hslot] at hnone
    cases hnone
  · intro hmem
    cases hslot : a.slot? registry t with
    | none => rfl
    | some slot =>
      exact absurd (List.mem_of_getElem? ((h.slot?_eq_some_iff hreg).mp hslot)) hmem

theorem Wf.contains_iff [DecidableEq T] [ComponentType T] {registry : TypeRegistry T}
    {a : Archetype T} (h : a.Wf registry) (hreg : registry.Wf) {t : T} :
    a.contains registry t = true ↔ t ∈ a.types := by
  rw [contains, Option.isSome_iff_ne_none, Ne, h.slot?_eq_none_iff hreg]
  exact Decidable.not_not

/-! ### The archetype of a set -/

/-- The registry knows the types of the map under their keys. -/
def Indexes (registry : TypeRegistry T) (types : DenseMap T) : Prop :=
  ∀ entry ∈ types.toList, registry.type? entry.1 = some entry.2

theorem Indexes.mono {registry registry' : TypeRegistry T} {types : DenseMap T}
    (h : Indexes registry types) (hext : registry.Extends registry') :
    Indexes registry' types :=
  fun entry hentry => hext.type? (h entry hentry)

theorem indexes_withCapacity (registry : TypeRegistry T) (capacity : Nat) :
    Indexes registry (DenseMap.withCapacity capacity) :=
  fun _ hentry => nomatch hentry

/-- There are far fewer types than positions, so a map of types has room for one more. -/
theorem Indexes.room [ComponentType T] {registry : TypeRegistry T} {types : DenseMap T}
    (h : Indexes registry types) (hwf : types.Wf) (hreg : registry.Wf) :
    types.keys.size + 1 < UInt32.size := by
  -- The keys are distinct, and each is the index of a type.
  have hsub : types.keys.toList ⊆ List.range (registry.size + 1) := by
    intro key hkey
    rw [← hwf.keys_toList] at hkey
    obtain ⟨entry, hentry, rfl⟩ := List.mem_map.mp hkey
    exact List.mem_range.mpr (Nat.lt_succ_of_le (TypeRegistry.type?_le (h entry hentry)).2)
  have hlen := hwf.keys_nodup.length_le_of_subset hsub
  have hsize := hreg.size_le
  rw [List.length_range, Array.length_toList] at hlen
  simp only [TypeRegistry.maxBits, Nat.one_shiftLeft] at hsize
  rw [UInt32.size]
  omega

/-- A registered type may be put into the map under its index. -/
theorem Indexes.insert {registry : TypeRegistry T} {types : DenseMap T}
    (h : Indexes registry types) (hwf : types.Wf) {index : Nat} {t : T}
    (hnew : types.contains index = false) (hroom : types.keys.size + 1 < UInt32.size)
    (ht : registry.type? index = some t) : Indexes registry (types.insert index t).2 := by
  intro entry hentry
  rw [(DenseMap.insert_of_new hwf hnew hroom t).2.2.2] at hentry
  rcases List.mem_append.mp hentry with hold | hlast
  · exact h entry hold
  · rw [List.mem_singleton.mp hlast]
    exact ht

/-- Reading all entries back by their keys yields their values. -/
theorem filterMap_get? {types : DenseMap T} (h : types.Wf) :
    types.keys.toList.filterMap types.get? = types.toList.map (·.2) := by
  have hget : ∀ entry ∈ types.toList, types.get? entry.1 = some entry.2 :=
    fun entry hentry => (h.get?_eq_some_iff entry.1 entry.2).mpr hentry
  rw [← h.keys_toList, List.filterMap_map]
  generalize types.toList = entries at hget
  induction entries with
  | nil => rfl
  | cons entry rest ih =>
    rw [List.filterMap_cons, Function.comp_apply, hget entry (List.mem_cons_self ..),
      List.map_cons, ih fun e he => hget e (List.mem_cons_of_mem _ he)]

/-- The columns of a set are its types. -/
theorem layoutOf_perm {types : DenseMap T} (h : types.Wf) :
    (layoutOf types).Perm (types.toList.map (·.2)) := by
  rw [← filterMap_get? h]
  exact h.sortedKeys_spec.1.filterMap types.get?

theorem lists_layoutOf {registry : TypeRegistry T} {types : DenseMap T} (h : types.Wf)
    (hidx : Indexes registry types) : registry.Lists types.sortedKeys (layoutOf types) := by
  have hget : ∀ key ∈ types.sortedKeys, ∃ t, types.get? key = some t ∧
      registry.type? key = some t := by
    intro key hkey
    rw [h.sortedKeys_spec.1.mem_iff, ← h.keys_toList, List.mem_map] at hkey
    obtain ⟨entry, hentry, rfl⟩ := hkey
    exact ⟨entry.2, (h.get?_eq_some_iff _ _).mpr hentry, hidx entry hentry⟩
  unfold TypeRegistry.Lists layoutOf
  generalize types.sortedKeys = keys at hget
  induction keys with
  | nil => rfl
  | cons key rest ih =>
    obtain ⟨t, ht, htype⟩ := hget key (List.mem_cons_self ..)
    rw [List.filterMap_cons, ht, List.map_cons, List.map_cons, htype,
      ih fun k hk => hget k (List.mem_cons_of_mem _ hk)]

theorem ofTypes_wf {registry : TypeRegistry T} {types : DenseMap T} (h : types.Wf)
    (hidx : Indexes registry types) (key : UInt64) (partition : Nat) :
    (ofTypes key types partition).Wf registry :=
  ⟨h.sortedKeys_spec.2, lists_layoutOf h hidx, rfl⟩

end ArchetypeStore.Archetype

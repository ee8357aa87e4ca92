import ArchetypeStore.Proofs.Catalog.Key
import Mathlib.Data.List.Nodup

/-! # The graph of sets

  Nodes have distinct keys. Every type of a larger set has a node of its own, which is
  linked to exactly the larger sets with this type; nothing else is linked. Making a node
  keeps this and touches neither the types nor the archetype of any other node.
-/

namespace ArchetypeStore

variable {T : Type}

/-! ### Nodes -/

/-- A set is of a single type or not. -/
theorem single_or_several (types : DenseMap T) :
    (∃ index, types.keys.toList = [index]) ∨ types.size ≠ 1 := by
  by_cases hsize : types.size = 1
  · left
    rw [DenseMap.size, ← Array.length_toList, List.length_eq_one_iff] at hsize
    exact hsize
  · exact .inr hsize

theorem size_of_single {types : DenseMap T} {index : Nat} (h : types.keys.toList = [index]) :
    types.size = 1 := by
  rw [DenseMap.size, ← Array.length_toList, h]
  rfl

/-- A node stands for a nonempty set of registered types, under its key. -/
structure SetNode.Wf (registry : TypeRegistry T) (n : SetNode T) : Prop where
  types : n.types.Wf
  indexed : Archetype.Indexes registry n.types
  nonempty : n.types.keys.toList ≠ []
  key : n.key = keyFor n.types

namespace SetNode.Wf

variable {registry registry' : TypeRegistry T} {n : SetNode T} (h : n.Wf registry)

include h

theorem mono (hext : registry.Extends registry') : n.Wf registry' :=
  ⟨h.types, h.indexed.mono hext, h.nonempty, h.key⟩

theorem size_ne_zero : n.types.size ≠ 0 := by
  rw [DenseMap.size, ← Array.length_toList]
  exact fun hzero => h.nonempty (List.length_eq_zero_iff.mp hzero)

variable [ComponentType T] (hreg : registry.Wf)

include hreg

theorem index_bounds {index : Nat} (hindex : index ∈ n.types.keys.toList) :
    0 < index ∧ index ≤ 1 <<< TypeRegistry.maxBits := by
  rw [← h.types.keys_toList] at hindex
  obtain ⟨entry, hentry, rfl⟩ := List.mem_map.mp hindex
  have hle := TypeRegistry.type?_le (h.indexed entry hentry)
  exact ⟨hle.1, Nat.le_trans hle.2 hreg.size_le⟩

theorem key_ne_rootKey : n.key ≠ rootKey := by
  rw [h.key]
  rcases single_or_several n.types with ⟨index, hkeys⟩ | hsize
  · have hbounds := h.index_bounds hreg (hkeys ▸ List.mem_singleton.mpr rfl)
    rw [keyFor_of_single hkeys]
    exact indexKey_ne_rootKey hbounds.1 hbounds.2
  · rw [keyFor_of_size_ne_one hsize]
    exact multiKey_ne_rootKey _

/-- The node of a single type has no key of a larger set. -/
theorem key_ne_multiKey (hone : n.types.size = 1) (hash : UInt64) : n.key ≠ multiKey hash := by
  obtain ⟨index, hkeys⟩ := (single_or_several n.types).resolve_right fun hmany => hmany hone
  have hbounds := h.index_bounds hreg (hkeys ▸ List.mem_singleton.mpr rfl)
  rw [h.key, keyFor_of_single hkeys]
  exact (multiKey_ne_indexKey hash hbounds.2).symm

/-- The node under the key of an index is the one of the single type. -/
theorem keys_of_indexKey {index : Nat} (hindex : index ≤ 1 <<< TypeRegistry.maxBits)
    (hkey : n.key = UInt64.ofNat index) : n.types.keys.toList = [index] := by
  rw [h.key] at hkey
  rcases single_or_several n.types with ⟨index', hkeys⟩ | hsize
  · have hbounds := h.index_bounds hreg (hkeys ▸ List.mem_singleton.mpr rfl)
    rw [keyFor_of_single hkeys] at hkey
    rw [hkeys, indexKey_inj hbounds.2 hindex hkey]
  · rw [keyFor_of_size_ne_one hsize] at hkey
    exact absurd hkey (multiKey_ne_indexKey _ hindex)

end SetNode.Wf

/-- A node with the types asked for has the same indices. -/
theorem SetNode.hasTypes_perm {n : SetNode T} {types : DenseMap T} (hn : n.types.Wf)
    (ht : types.Wf) (h : n.hasTypes types = true) :
    n.types.keys.toList.Perm types.keys.toList := by
  simp only [hasTypes, Bool.and_eq_true, beq_iff_eq, Array.all_eq_true', DenseMap.size] at h
  obtain ⟨hsize, hall⟩ := h
  have hsub : types.keys.toList ⊆ n.types.keys.toList := by
    intro key hkey
    rw [← hn.contains_iff]
    exact hall key (Array.mem_toList_iff.mp hkey)
  rw [List.perm_ext_iff_of_nodup hn.keys_nodup ht.keys_nodup]
  intro key
  refine ⟨fun hkey => ?_, fun hkey => hsub hkey⟩
  -- A key that only the node has would make its list longer.
  refine Classical.byContradiction fun hnot => ?_
  have hnodup : (key :: types.keys.toList).Nodup := List.nodup_cons.mpr ⟨hnot, ht.keys_nodup⟩
  have hall' : key :: types.keys.toList ⊆ n.types.keys.toList := by
    intro k hk
    rcases List.mem_cons.mp hk with rfl | hk
    · exact hkey
    · exact hsub hk
  have hlen := hnodup.length_le_of_subset hall'
  simp only [List.length_cons, Array.length_toList] at hlen
  omega

/-! ### Links -/

@[simp] theorem SetNode.key_link (n : SetNode T) (key : UInt64) : (n.link key).key = n.key := by
  unfold link
  split <;> rfl

@[simp] theorem SetNode.types_link (n : SetNode T) (key : UInt64) :
    (n.link key).types = n.types := by
  unfold link
  split <;> rfl

@[simp] theorem SetNode.archetype_link (n : SetNode T) (key : UInt64) :
    (n.link key).archetype = n.archetype := by
  unfold link
  split <;> rfl

theorem SetNode.mem_links_link {n : SetNode T} {key key' : UInt64} :
    key' ∈ (n.link key).links ↔ key' ∈ n.links ∨ key' = key := by
  unfold link isLinked
  split
  · rename_i hmem
    constructor
    · exact .inl
    · rintro (hold | rfl)
      · exact hold
      · exact List.contains_iff_mem.mp hmem
  · simp

theorem SetNode.links_link_nodup {n : SetNode T} (h : n.links.Nodup) (key : UInt64) :
    (n.link key).links.Nodup := by
  unfold link isLinked
  split
  · exact h
  · rename_i hnot
    refine List.nodup_append.mpr ⟨h, List.pairwise_singleton .., fun a ha b hb => ?_⟩
    rw [List.mem_singleton.mp hb]
    rintro rfl
    exact hnot (List.contains_iff_mem.mpr ha)

/-- Linking twice to one node is linking once. -/
theorem SetNode.link_link (n : SetNode T) (key : UInt64) : (n.link key).link key = n.link key := by
  have hlinked : (n.link key).isLinked key = true :=
    List.contains_iff_mem.mpr (SetNode.mem_links_link.mpr (.inr rfl))
  rw [link, if_pos hlinked]

/-! ### Tables -/

namespace NodeTable

/-- Distinct keys, and links from the single types to the larger sets, no others. -/
structure Wf (registry : TypeRegistry T) (table : NodeTable T) : Prop where
  nodes : ∀ n ∈ table.nodes, n.Wf registry
  keys_nodup : (table.nodes.map (·.key)).Nodup
  singles : ∀ n ∈ table.nodes, ∀ index ∈ n.types.keys.toList,
    ∃ m ∈ table.nodes, m.types.keys.toList = [index]
  links_nodup : ∀ n ∈ table.nodes, n.links.Nodup
  links_single : ∀ n ∈ table.nodes, ∀ index, n.types.keys.toList = [index] → ∀ key,
    key ∈ n.links ↔ ∃ m ∈ table.nodes, m.key = key ∧ m.types.size ≠ 1 ∧
      index ∈ m.types.keys.toList
  links_several : ∀ n ∈ table.nodes, n.types.size ≠ 1 → n.links = []

/-- Nodes of the first table keep types and archetype; the others have no archetype. -/
structure Grows (table table' : NodeTable T) : Prop where
  keeps : ∀ n ∈ table.nodes, ∃ n' ∈ table'.nodes,
    n'.key = n.key ∧ n'.types = n.types ∧ n'.archetype = n.archetype
  fresh : ∀ n' ∈ table'.nodes, n'.archetype = none ∨
    ∃ n ∈ table.nodes, n'.key = n.key ∧ n'.types = n.types ∧ n'.archetype = n.archetype

theorem Grows.refl (table : NodeTable T) : table.Grows table :=
  ⟨fun n hn => ⟨n, hn, rfl, rfl, rfl⟩, fun n hn => .inr ⟨n, hn, rfl, rfl, rfl⟩⟩

theorem Grows.trans {table table' table'' : NodeTable T} (h : table.Grows table')
    (h' : table'.Grows table'') : table.Grows table'' := by
  refine ⟨fun n hn => ?_, fun n'' hn'' => ?_⟩
  · obtain ⟨n', hn', hkey, htypes, harch⟩ := h.keeps n hn
    obtain ⟨n'', hn'', hkey', htypes', harch'⟩ := h'.keeps n' hn'
    exact ⟨n'', hn'', hkey'.trans hkey, htypes'.trans htypes, harch'.trans harch⟩
  · rcases h'.fresh n'' hn'' with hnone | ⟨n', hn', hkey', htypes', harch'⟩
    · exact .inl hnone
    · rcases h.fresh n' hn' with hnone | ⟨n, hn, hkey, htypes, harch⟩
      · exact .inl (harch'.trans hnone)
      · exact .inr ⟨n, hn, hkey'.trans hkey, htypes'.trans htypes, harch'.trans harch⟩

theorem get?_eq_some_iff_of_nodup {table : NodeTable T}
    (h : (table.nodes.map (·.key)).Nodup) {key : UInt64} {n : SetNode T} :
    table.get? key = some n ↔ n ∈ table.nodes ∧ n.key = key := by
  constructor
  · intro hget
    exact ⟨List.mem_of_find?_eq_some hget, by simpa using List.find?_some hget⟩
  · rintro ⟨hn, rfl⟩
    cases hget : table.get? n.key with
    | none =>
      have := List.find?_eq_none.mp hget n hn
      simp at this
    | some m =>
      have hm : m ∈ table.nodes := List.mem_of_find?_eq_some hget
      have hkey : m.key = n.key := by simpa using List.find?_some hget
      rw [List.inj_on_of_nodup_map h hm hn hkey]

namespace Wf

variable {registry registry' : TypeRegistry T} {table : NodeTable T} (h : table.Wf registry)

include h

theorem mono (hext : registry.Extends registry') : table.Wf registry' :=
  ⟨fun n hn => (h.nodes n hn).mono hext, h.keys_nodup, h.singles, h.links_nodup,
    h.links_single, h.links_several⟩

/-- A key belongs to one node. -/
theorem eq_of_key {n m : SetNode T} (hn : n ∈ table.nodes) (hm : m ∈ table.nodes)
    (hkey : n.key = m.key) : n = m := List.inj_on_of_nodup_map h.keys_nodup hn hm hkey

theorem get?_eq_some_iff {key : UInt64} {n : SetNode T} :
    table.get? key = some n ↔ n ∈ table.nodes ∧ n.key = key :=
  get?_eq_some_iff_of_nodup h.keys_nodup

end Wf

theorem get?_eq_none_iff {table : NodeTable T} {key : UInt64} :
    table.get? key = none ↔ ∀ n ∈ table.nodes, n.key ≠ key := by
  rw [get?, List.find?_eq_none]
  simp

theorem has_false {table : NodeTable T} {key : UInt64} {types : DenseMap T}
    (h : table.has key types = .ok false) : table.get? key = none := by
  unfold has at h
  split at h
  · assumption
  · split at h <;> cases h

theorem has_true {table : NodeTable T} {key : UInt64} {types : DenseMap T}
    (h : table.has key types = .ok true) :
    ∃ n, table.get? key = some n ∧ n.hasTypes types = true := by
  unfold has at h
  split at h
  · cases h
  · rename_i n hget
    split at h
    · rename_i hsame
      exact ⟨n, hget, hsame⟩
    · cases h

theorem has_error {table : NodeTable T} {key : UInt64} {types : DenseMap T} {e : StoreError}
    (h : table.has key types = .error e) : e.StopsGrowth := by
  unfold has at h
  split at h
  · cases h
  · split at h
    · cases h
    · cases h
      exact .inl rfl

end NodeTable

end ArchetypeStore

import ArchetypeStore.Proofs.Catalog.Linking
import ArchetypeStore.Proofs.RowStore.Removal

/-! # The invariant of the catalog

  Each archetype is that of its node, and its rows are in a partition that no other
  archetype has. A catalog that grows keeps its archetypes and what their rows hold.
-/

namespace ArchetypeStore

variable {T V : Type}

/-! ### Stores that spread -/

/-- The second store differs from the first in new partitions only. -/
structure RowStore.Spreads (s s' : RowStore T V) : Prop where
  format : s'.format = s.format
  rows : ∀ chunk, s'.rows chunk = s.rows chunk
  ids : s'.ids = s.ids
  layout : ∀ q layout, s.layout? q = some layout → s'.layout? q = some layout
  chain : ∀ q, (s.layout? q).isSome → s'.chain q = s.chain q

namespace RowStore.Spreads

theorem refl (s : RowStore T V) : s.Spreads s :=
  ⟨rfl, fun _ => rfl, rfl, fun _ _ h => h, fun _ _ => rfl⟩

theorem withMemory (s : RowStore T V) (m : Memory) : s.Spreads (s.withMemory m) :=
  ⟨rfl, fun _ => rfl, rfl, fun _ _ hq => hq, fun _ _ => rfl⟩

theorem trans {s s' s'' : RowStore T V} (h : s.Spreads s') (h' : s'.Spreads s'') :
    s.Spreads s'' := by
  refine ⟨h'.format.trans h.format, fun c => (h'.rows c).trans (h.rows c), h'.ids.trans h.ids,
    fun q layout hq => h'.layout q layout (h.layout q layout hq), fun q hq => ?_⟩
  obtain ⟨layout, hlayout⟩ := Option.isSome_iff_exists.mp hq
  rw [h'.chain q (by rw [h.layout q layout hlayout]; rfl), h.chain q hq]

theorem of_newPartition [ComponentType T] {s s' : RowStore T V} {layout : List T}
    {partition : Nat} (h : s.newPartition layout = (.ok partition, s')) : s.Spreads s' := by
  obtain ⟨hsize, -, hadds, -⟩ := newPartition_ok h
  have hnone : s.layout? partition = none := by
    rw [layout?, hsize, Array.getElem?_eq_none (Nat.le_refl _)]
    rfl
  -- The new partition has a number that none had before.
  have hold : ∀ q, (s.layout? q).isSome → q ≠ partition := by
    rintro q hq rfl
    rw [hnone] at hq
    cases hq
  refine ⟨hadds.format, hadds.rows, hadds.ids, fun q layout' hq => ?_, fun q hq => ?_⟩
  · rw [layout?_newPartition h, if_neg (hold q (by rw [hq]; rfl)), hq]
  · rw [chain_newPartition h, if_neg (hold q hq)]

variable {s s' : RowStore T V} (h : s.Spreads s')

include h

theorem fill (c : Nat) : s'.fill c = s.fill c := by rw [fill_eq, fill_eq, h.rows]

theorem cell? (c r : Nat) : s'.cell? c r = s.cell? c r := by rw [cell?_eq, cell?_eq, h.rows]

theorem idOf (item : Nat) : s'.idOf item = s.idOf item := by
  rw [RowStore.idOf, RowStore.idOf, h.ids]

theorem dense (hdense : s.Dense) : s'.Dense := by
  intro c r hr
  rw [h.fill] at hr
  rw [h.cell?]
  exact hdense c r hr

end RowStore.Spreads

/-! ### The invariant -/

namespace NodeTable

/-- Only the archetype of a node changes. -/
theorem get?_modify (table : NodeTable T) {f : SetNode T → SetNode T}
    (hf : ∀ n, (f n).key = n.key) (key key' : UInt64) :
    (table.modify key f).get? key' =
      if key' = key then (table.get? key').map f else table.get? key' := by
  unfold get? modify
  simp only
  induction table.nodes with
  | nil => split <;> rfl
  | cons n rest ih =>
    have hkey : (if (n.key == key) = true then f n else n).key = n.key := by
      split
      · exact hf n
      · rfl
    rw [List.map_cons, List.find?_cons, List.find?_cons, hkey]
    by_cases hn : n.key = key'
    · simp only [hn, beq_self_eq_true, beq_iff_eq]
      split <;> rfl
    · simp only [beq_false_of_ne hn]
      exact ih

/-- Nodes with the same key, types and links make a table as good. -/
theorem Wf.congr_archetypes {registry : TypeRegistry T} {table : NodeTable T}
    (h : table.Wf registry) {f : SetNode T → SetNode T}
    (hf : ∀ n, (f n).key = n.key ∧ (f n).types = n.types ∧ (f n).links = n.links) :
    Wf registry ⟨table.nodes.map f⟩ := by
  refine ⟨?_, ?_, ?_, ?_, ?_, ?_⟩
  · intro n' hn'
    obtain ⟨n, hn, rfl⟩ := List.mem_map.mp hn'
    have hold := h.nodes n hn
    exact ⟨(hf n).2.1 ▸ hold.types, (hf n).2.1 ▸ hold.indexed, (hf n).2.1 ▸ hold.nonempty, by
      rw [(hf n).1, (hf n).2.1, hold.key]⟩
  · have hkeys : (table.nodes.map f).map (·.key) = table.nodes.map (·.key) := by
      rw [List.map_map]
      exact List.map_congr_left fun n _ => (hf n).1
    rw [hkeys]
    exact h.keys_nodup
  · intro n' hn' index hindex
    obtain ⟨n, hn, rfl⟩ := List.mem_map.mp hn'
    rw [(hf n).2.1] at hindex
    -- The node of the single type is changed as well, but not its indices.
    obtain ⟨m, hm, hkeys⟩ := h.singles n hn index hindex
    exact ⟨f m, List.mem_map_of_mem hm, by rw [(hf m).2.1, hkeys]⟩
  · intro n' hn'
    obtain ⟨n, hn, rfl⟩ := List.mem_map.mp hn'
    rw [(hf n).2.2]
    exact h.links_nodup n hn
  · intro n' hn' index hkeys key
    obtain ⟨n, hn, rfl⟩ := List.mem_map.mp hn'
    rw [(hf n).2.1] at hkeys
    rw [(hf n).2.2, h.links_single n hn index hkeys key]
    constructor
    · rintro ⟨m, hm, hrest⟩
      refine ⟨f m, List.mem_map_of_mem hm, ?_⟩
      rw [(hf m).1, (hf m).2.1]
      exact hrest
    · rintro ⟨m', hm', hrest⟩
      obtain ⟨m, hm, rfl⟩ := List.mem_map.mp hm'
      rw [(hf m).1, (hf m).2.1] at hrest
      exact ⟨m, hm, hrest⟩
  · intro n' hn' hsize
    obtain ⟨n, hn, rfl⟩ := List.mem_map.mp hn'
    rw [(hf n).2.1] at hsize
    rw [(hf n).2.2]
    exact h.links_several n hn hsize

/-- A table that grows keeps the archetypes under all keys. -/
theorem Grows.archetype {table table' : NodeTable T} (h : table.Grows table')
    (hnodup : (table.nodes.map (·.key)).Nodup) (hnodup' : (table'.nodes.map (·.key)).Nodup)
    (key : UInt64) :
    (table'.get? key).bind (·.archetype) = (table.get? key).bind (·.archetype) := by
  cases hget : table.get? key with
  | some n =>
    obtain ⟨hn, rfl⟩ := (get?_eq_some_iff_of_nodup hnodup).mp hget
    obtain ⟨n', hn', hkey, -, harch⟩ := h.keeps n hn
    rw [(get?_eq_some_iff_of_nodup hnodup').mpr ⟨hn', hkey⟩]
    exact harch
  | none =>
    cases hget' : table'.get? key with
    | none => rfl
    | some n' =>
      obtain ⟨hn', rfl⟩ := (get?_eq_some_iff_of_nodup hnodup').mp hget'
      -- A node that is new has no archetype yet.
      rcases h.fresh n' hn' with hnone | ⟨n, hn, hkey, -⟩
      · exact hnone
      · exact absurd hkey.symm (get?_eq_none_iff.mp hget n hn)

end NodeTable

namespace Catalog

variable [ComponentType T]

/-- The invariant of the catalog. -/
structure Wf (c : Catalog T V) : Prop where
  registry : c.registry.Wf
  root_key : c.root.key = rootKey
  root_types : c.root.types = DenseMap.empty
  root_links : c.root.links = []
  nodes : c.nodes.Wf c.registry
  /-- An archetype is that of its node, and its partition has its columns. -/
  archetypes : ∀ key a, c.archetype? key = some a → ∃ n, c.node? key = some n ∧
    a = .ofTypes key n.types a.partition ∧ c.store.layout? a.partition = some a.types
  /-- No two archetypes share a partition. -/
  partitions : ∀ key key' a a', c.archetype? key = some a → c.archetype? key' = some a' →
    a.partition = a'.partition → key = key'

/-- The second catalog has all archetypes of the first, with the same rows. -/
structure Grows (c c' : Catalog T V) : Prop where
  registry : c.registry.Extends c'.registry
  archetypes : ∀ key a, c.archetype? key = some a → c'.archetype? key = some a
  store : c.store.Spreads c'.store

omit [ComponentType T] in
theorem Grows.refl (c : Catalog T V) : c.Grows c := ⟨.refl _, fun _ _ h => h, .refl _⟩

omit [ComponentType T] in
theorem Grows.trans {c c' c'' : Catalog T V} (h : c.Grows c') (h' : c'.Grows c'') :
    c.Grows c'' :=
  ⟨h.registry.trans h'.registry, fun key a ha => h'.archetypes key a (h.archetypes key a ha),
    h.store.trans h'.store⟩

namespace Wf

variable {c : Catalog T V} (h : c.Wf)

include h

/-- The types of a node are a well-formed map that the registry knows. -/
theorem node_types {key : UInt64} {n : SetNode T} (hn : c.node? key = some n) :
    n.types.Wf ∧ Archetype.Indexes c.registry n.types := by
  unfold node? at hn
  split at hn
  · cases hn
    rw [h.root_types]
    exact ⟨DenseMap.withCapacity_wf 0, Archetype.indexes_withCapacity _ 0⟩
  · have hnode := h.nodes.nodes n (h.nodes.get?_eq_some_iff.mp hn).1
    exact ⟨hnode.types, hnode.indexed⟩

/-- The archetype under a key is well formed. -/
theorem archetype_wf {key : UInt64} {a : Archetype T} (ha : c.archetype? key = some a) :
    a.Wf c.registry ∧ a.key = key ∧ c.store.layout? a.partition = some a.types := by
  obtain ⟨n, hn, heq, hlayout⟩ := h.archetypes key a ha
  obtain ⟨hwf, hidx⟩ := h.node_types hn
  refine ⟨?_, ?_, hlayout⟩
  · rw [heq]
    exact Archetype.ofTypes_wf hwf hidx key a.partition
  · rw [heq]
    rfl

/-- A longer registry and a table that grew do not touch the archetypes. -/
theorem withNodes {registry : TypeRegistry T} {nodes : NodeTable T}
    (hext : c.registry.Extends registry) (hreg : registry.Wf) (hnodes : nodes.Wf registry)
    (hgrows : c.nodes.Grows nodes) :
    Wf { c with registry, nodes } ∧ c.Grows { c with registry, nodes } := by
  have harch : ∀ key, archetype? { c with registry, nodes } key = c.archetype? key := by
    intro key
    unfold archetype? node?
    split
    · rfl
    · exact hgrows.archetype h.nodes.keys_nodup hnodes.keys_nodup key
  refine ⟨⟨hreg, h.root_key, h.root_types, h.root_links, hnodes, ?_, ?_⟩, hext, ?_, .refl _⟩
  · intro key a ha
    rw [harch] at ha
    obtain ⟨n, hn, heq, hlayout⟩ := h.archetypes key a ha
    unfold node? at hn ⊢
    split at hn
    · rename_i hroot
      -- The root is no part of the table.
      exact ⟨n, by rw [if_pos hroot]; exact hn, heq, hlayout⟩
    · rename_i hroot
      obtain ⟨hmem, rfl⟩ := h.nodes.get?_eq_some_iff.mp hn
      obtain ⟨n', hn', hkey, htypes, -⟩ := hgrows.keeps n hmem
      refine ⟨n', ?_, by rw [htypes]; exact heq, hlayout⟩
      rw [if_neg hroot]
      exact hnodes.get?_eq_some_iff.mpr ⟨hn', hkey⟩
  · intro key key' a a' ha ha' hpartition
    rw [harch] at ha ha'
    exact h.partitions key key' a a' ha ha' hpartition
  · intro key a ha
    rw [harch]
    exact ha

/-- Only the columns of partitions matter to the archetypes. -/
theorem withStore {store : RowStore T V}
    (hlayout : ∀ q layout, c.store.layout? q = some layout → store.layout? q = some layout) :
    Wf { c with store } := by
  refine ⟨h.registry, h.root_key, h.root_types, h.root_links, h.nodes, ?_, h.partitions⟩
  intro key a ha
  obtain ⟨n, hn, heq, hlay⟩ := h.archetypes key a ha
  exact ⟨n, hn, heq, hlayout _ _ hlay⟩

/-- The graph of sets does not depend on how memory answers. -/
theorem withMemory (m : Memory) : (c.withMemory m).Wf ∧ c.Grows (c.withMemory m) := by
  have hext := TypeRegistry.Extends.withMemory c.registry m
  obtain ⟨hwf, hgrows⟩ :=
    h.withNodes hext (h.registry.withMemory m) (h.nodes.mono hext) (.refl _)
  exact ⟨hwf.withStore fun _ _ hq => hq, hext, hgrows.archetypes, .withMemory c.store m⟩

end Wf

omit [ComponentType T] in
theorem create_eq {settings : Settings} {c : Catalog T V}
    (h : create settings = .ok c) : ∃ registry format, settings.registry = .ok registry ∧
      settings.idFormat = .ok format ∧
        c = ⟨registry, .empty format, SetNode.create rootKey DenseMap.empty, .empty⟩ := by
  unfold create at h
  cases hvalidate : settings.validate with
  | error e =>
    rw [hvalidate] at h
    cases h
  | ok =>
    cases hregistry : (settings.registry : Except StoreError (TypeRegistry T)) with
    | error e =>
      simp only [hvalidate, hregistry, bind, Except.bind] at h
      cases h
    | ok registry =>
      cases hformat : settings.idFormat with
      | error e =>
        simp only [hvalidate, hregistry, hformat, bind, Except.bind] at h
        cases h
      | ok format =>
        simp only [hvalidate, hregistry, hformat, bind, Except.bind] at h
        cases h
        exact ⟨registry, format, rfl, rfl, rfl⟩

omit [ComponentType T] in
/-- No archetype is there before one is asked for. -/
theorem create_archetype? {settings : Settings} {c : Catalog T V}
    (h : create settings = .ok c) (key : UInt64) : c.archetype? key = none := by
  obtain ⟨registry, format, -, -, rfl⟩ := create_eq h
  unfold archetype? node?
  split <;> rfl

theorem create_wf {settings : Settings} {c : Catalog T V} (h : create settings = .ok c) :
    c.Wf ∧ c.store.format.Valid ∧ c.store = .empty c.store.format := by
  have hnone := create_archetype? h
  obtain ⟨registry, format, hregistry, hformat, rfl⟩ := create_eq h
  refine ⟨⟨TypeRegistry.create_wf hregistry, rfl, rfl, rfl, ?_, ?_, ?_⟩,
    IdFormat.create_valid hformat, rfl⟩
  · refine ⟨?_, List.nodup_nil, ?_, ?_, ?_, ?_⟩
    all_goals
      intro n hn
      cases hn
  · intro key a ha
    rw [hnone] at ha
    cases ha
  · intro key key' a a' ha
    rw [hnone] at ha
    cases ha

end Catalog

end ArchetypeStore

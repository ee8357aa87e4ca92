import ArchetypeStore.Proofs.Archetype.Fitting
import ArchetypeStore.Proofs.Catalog.Requests
import ArchetypeStore.Proofs.TypeRegistry.Stability
import ArchetypeStore.Proofs.World.History

/-! # Whatever is done to a catalog

  Besides asking for nodes and archetypes, a caller may register types in any of the ways
  there are, link any node to any other one, and have archetypes made for nodes that were
  there before; entities come and go in the row store. Links that the caller makes may say
  anything. What is left to rely on is this: each node has the key of its set, no two
  nodes have the same key, and an archetype has the slots of its types.

  It follows that a request for a node can be refused on its key in one way only, when the
  key belongs to another set already. Nodes of single types are never in the way.
-/

namespace ArchetypeStore

variable {T V : Type}

/-! ### Nodes -/

/-- The archetype of the node, if it has one, is one for the types of the node, with their
slots. -/
def SetNode.Housed (registry : TypeRegistry T) (n : SetNode T) : Prop :=
  ∀ a, n.archetype = some a → a.Wf registry ∧ a.types = Archetype.layoutOf n.types

theorem SetNode.Housed.mono {registry registry' : TypeRegistry T} {n : SetNode T}
    (h : n.Housed registry) (hext : registry.Extends registry') : n.Housed registry' :=
  fun a ha => ⟨(h a ha).1.mono hext, (h a ha).2⟩

theorem SetNode.create_housed (registry : TypeRegistry T) (key : UInt64) (types : DenseMap T) :
    (SetNode.create key types).Housed registry := fun _ ha => nomatch ha

/-- A node has the types asked for when the indices are the same. -/
theorem SetNode.hasTypes_iff {n : SetNode T} {types : DenseMap T} (hn : n.types.Wf)
    (ht : types.Wf) :
    n.hasTypes types = true ↔ n.types.keys.toList.Perm types.keys.toList :=
  ⟨SetNode.hasTypes_perm hn ht, SetNode.hasTypes_of_perm hn⟩

namespace NodeTable

/-- Nodes have the keys of their sets, all different. -/
structure Keyed (registry : TypeRegistry T) (table : NodeTable T) : Prop where
  nodes : ∀ n ∈ table.nodes, n.Wf registry
  housed : ∀ n ∈ table.nodes, n.Housed registry
  keys_nodup : (table.nodes.map (·.key)).Nodup

/-- The key belongs to a node with other types. -/
def Taken (table : NodeTable T) (key : UInt64) (types : DenseMap T) : Prop :=
  ∃ n ∈ table.nodes, n.key = key ∧ ¬ n.types.keys.toList.Perm types.keys.toList

namespace Keyed

variable {registry registry' : TypeRegistry T} {table : NodeTable T} (h : table.Keyed registry)

include h

theorem mono (hext : registry.Extends registry') : table.Keyed registry' :=
  ⟨fun n hn => (h.nodes n hn).mono hext, fun n hn => (h.housed n hn).mono hext, h.keys_nodup⟩

theorem get?_eq_some_iff {key : UInt64} {n : SetNode T} :
    table.get? key = some n ↔ n ∈ table.nodes ∧ n.key = key :=
  get?_eq_some_iff_of_nodup h.keys_nodup

/-- Changes that keep keys and types keep all of it. -/
theorem map {f : SetNode T → SetNode T} (hkey : ∀ n, (f n).key = n.key)
    (htypes : ∀ n, (f n).types = n.types)
    (hhoused : ∀ n ∈ table.nodes, (f n).Housed registry) :
    Keyed registry ⟨table.nodes.map f⟩ := by
  refine ⟨fun n' hn' => ?_, fun n' hn' => ?_, ?_⟩
  · obtain ⟨n, hn, rfl⟩ := List.mem_map.mp hn'
    have hold := h.nodes n hn
    exact ⟨htypes n ▸ hold.types, htypes n ▸ hold.indexed, htypes n ▸ hold.nonempty, by
      rw [hkey, htypes, hold.key]⟩
  · obtain ⟨n, hn, rfl⟩ := List.mem_map.mp hn'
    exact hhoused n hn
  · have hkeys : (table.nodes.map f).map (·.key) = table.nodes.map (·.key) := by
      rw [List.map_map]
      exact List.map_congr_left fun n _ => hkey n
    rw [hkeys]
    exact h.keys_nodup

/-- A node is added under a key that no other one has. -/
theorem add {key : UInt64} {types : DenseMap T} (hnode : (SetNode.create key types).Wf registry)
    (hnew : table.get? key = none) :
    Keyed registry ⟨table.nodes ++ [SetNode.create key types]⟩ := by
  refine ⟨fun n hn => ?_, fun n hn => ?_, ?_⟩
  · rcases List.mem_append.mp hn with hold | hlast
    · exact h.nodes n hold
    · exact List.mem_singleton.mp hlast ▸ hnode
  · rcases List.mem_append.mp hn with hold | hlast
    · exact h.housed n hold
    · exact List.mem_singleton.mp hlast ▸ SetNode.create_housed registry key types
  · rw [List.map_append, List.nodup_append]
    refine ⟨h.keys_nodup, List.pairwise_singleton .., fun key' hkey' key'' hkey'' => ?_⟩
    obtain ⟨n, hn, rfl⟩ := List.mem_map.mp hkey'
    rw [List.map_singleton, List.mem_singleton] at hkey''
    rw [hkey'']
    exact get?_eq_none_iff.mp hnew n hn

variable {key : UInt64} {types : DenseMap T} (hnode : (SetNode.create key types).Wf registry)

include hnode

/-- The answers to the question whether there is a node for a set. -/
theorem has_cases :
    table.Taken key types ∧ table.has key types = .error (.archetypeHashCollision key) ∨
      ¬ table.Taken key types ∧
        ((∃ n ∈ table.nodes, n.key = key ∧ n.types.keys.toList.Perm types.keys.toList ∧
            table.has key types = .ok true) ∨
          table.get? key = none ∧ table.has key types = .ok false) := by
  unfold has
  cases hget : table.get? key with
  | none =>
    refine .inr ⟨?_, .inr ⟨rfl, rfl⟩⟩
    rintro ⟨n, hn, hkey, -⟩
    exact get?_eq_none_iff.mp hget n hn hkey
  | some n =>
    obtain ⟨hn, hkey⟩ := h.get?_eq_some_iff.mp hget
    have hsame := SetNode.hasTypes_iff (h.nodes n hn).types hnode.types
    simp only
    split
    · rename_i htrue
      have hperm := hsame.mp htrue
      refine .inr ⟨?_, .inl ⟨n, hn, hkey, hperm, rfl⟩⟩
      rintro ⟨m, hm, hmkey, hother⟩
      have hmget := h.get?_eq_some_iff.mpr ⟨hm, hmkey⟩
      rw [hget] at hmget
      cases hmget
      exact hother hperm
    · rename_i hfalse
      exact .inl ⟨⟨n, hn, hkey, fun hperm => hfalse (hsame.mpr hperm)⟩, rfl⟩

/-- A node for a set is there, or it is added, unless the key is taken. -/
theorem ensure_cases :
    table.Taken key types ∧
        table.ensure key types = (.error (.archetypeHashCollision key), table) ∨
      ¬ table.Taken key types ∧ ∃ table', table.ensure key types = (.ok (), table') ∧
        table'.Keyed registry ∧
          (∃ n ∈ table'.nodes, n.key = key ∧ n.types.keys.toList.Perm types.keys.toList) ∧
            ∀ n ∈ table'.nodes, n ∈ table.nodes ∨ n.types = types := by
  unfold ensure
  rcases h.has_cases hnode with ⟨htaken, hhas⟩ |
    ⟨hfree, ⟨n, hn, hkey, hperm, hhas⟩ | ⟨hnew, hhas⟩⟩
  · exact .inl ⟨htaken, by rw [hhas]⟩
  · exact .inr ⟨hfree, table, by rw [hhas], h, ⟨n, hn, hkey, hperm⟩, fun n hn => .inl hn⟩
  · refine .inr ⟨hfree, _, by rw [hhas], h.add hnode hnew, ?_, fun n hn => ?_⟩
    · exact ⟨_, List.mem_append_right _ (List.mem_singleton.mpr rfl), rfl, .refl _⟩
    · rcases List.mem_append.mp hn with hold | hlast
      · exact .inl hold
      · rw [List.mem_singleton.mp hlast]
        exact .inr rfl

variable [ComponentType T] (hreg : registry.Wf)

include hreg

/-- The key of a single type is taken by nothing else. -/
theorem not_taken_of_single {index : Nat} (hkeys : types.keys.toList = [index]) :
    ¬ table.Taken key types := by
  rintro ⟨n, hn, hkey, hother⟩
  have hbounds := hnode.index_bounds hreg (hkeys ▸ List.mem_singleton.mpr rfl)
  refine hother ?_
  rw [hkeys, (h.nodes n hn).keys_of_indexKey hreg hbounds.2]
  rw [hkey, ← keyFor_of_single hkeys]
  exact hnode.key

omit hnode

/-- Nodes of single types can always be had. -/
theorem ensureSingles {entries : List (Nat × T)}
    (hentries : ∀ entry ∈ entries, registry.type? entry.1 = some entry.2) :
    ∃ table', table.ensureSingles entries = (.ok (), table') ∧ table'.Keyed registry ∧
      ∀ n ∈ table'.nodes, n ∈ table.nodes ∨ n.types.size = 1 := by
  induction entries generalizing table with
  | nil => exact ⟨table, rfl, h, fun n hn => .inl hn⟩
  | cons entry rest ih =>
    obtain ⟨index, t⟩ := entry
    obtain ⟨hwf, hkeys, hidx⟩ := insert_single index t
    have hnode : (SetNode.create (UInt64.ofNat index)
        ((DenseMap.withCapacity (index + 1)).insert index t).2).Wf registry :=
      ⟨hwf, hidx registry (hentries _ (List.mem_cons_self ..)), by simp [SetNode.create, hkeys],
        (keyFor_of_single hkeys).symm⟩
    have hfree := h.not_taken_of_single hnode hreg hkeys
    obtain ⟨-, table₁, hfirst, h₁, -, honly₁⟩ :=
      (h.ensure_cases hnode).resolve_left fun htaken => hfree htaken.1
    obtain ⟨table', hrest, h', honly⟩ := ih h₁ fun e he => hentries e (List.mem_cons_of_mem _ he)
    refine ⟨table', by simp only [NodeTable.ensureSingles, hfirst, hrest], h', fun n hn => ?_⟩
    rcases honly n hn with hn₁ | hsingle
    · rcases honly₁ n hn₁ with hold | hnew
      · exact .inl hold
      · exact .inr (hnew ▸ size_of_single hkeys)
    · exact .inr hsingle

end Keyed

end NodeTable

/-! ### Catalogs -/

namespace Catalog

variable [ComponentType T]

/-- What every catalog has, whatever links its nodes were given. -/
structure Keyed (c : Catalog T V) : Prop where
  registry : c.registry.Wf
  root_key : c.root.key = rootKey
  root_types : c.root.types = DenseMap.empty
  root_housed : c.root.Housed c.registry
  nodes : c.nodes.Keyed c.registry

namespace Keyed

variable {c : Catalog T V} (h : c.Keyed)

include h

/-- The types of a node are a well-formed map that the registry knows. -/
theorem node_types {key : UInt64} {n : SetNode T} (hn : c.node? key = some n) :
    n.types.Wf ∧ Archetype.Indexes c.registry n.types ∧ n.Housed c.registry := by
  unfold node? at hn
  split at hn
  · cases hn
    rw [h.root_types]
    exact ⟨DenseMap.withCapacity_wf 0, Archetype.indexes_withCapacity _ 0, h.root_housed⟩
  · have hmem := (h.nodes.get?_eq_some_iff.mp hn).1
    exact ⟨(h.nodes.nodes n hmem).types, (h.nodes.nodes n hmem).indexed, h.nodes.housed n hmem⟩

theorem archetype_wf {key : UInt64} {a : Archetype T} (ha : c.archetype? key = some a) :
    a.Wf c.registry := by
  obtain ⟨n, hn, hna⟩ := Option.bind_eq_some_iff.mp ha
  exact ((h.node_types hn).2.2 a hna).1

/-- The archetype of a node has its types. -/
theorem archetype_types {key : UInt64} {n : SetNode T} (hn : c.node? key = some n)
    {a : Archetype T} (ha : c.archetype? key = some a) : a.types = Archetype.layoutOf n.types := by
  have hna : n.archetype = some a := by rwa [archetype?, hn] at ha
  exact ((h.node_types hn).2.2 a hna).2

/-- The registry gets longer, and nodes are added. -/
theorem withNodes {registry : TypeRegistry T} {nodes : NodeTable T} (hreg : registry.Wf)
    (hext : c.registry.Extends registry) (hnodes : nodes.Keyed registry) :
    Keyed { c with registry, nodes } :=
  ⟨hreg, h.root_key, h.root_types, h.root_housed.mono hext, hnodes⟩

theorem withRegistry {registry : TypeRegistry T} (hreg : registry.Wf)
    (hext : c.registry.Extends registry) : Keyed { c with registry } :=
  h.withNodes hreg hext (h.nodes.mono hext)

/-- A change to one node that keeps its key and its types. -/
theorem modifyNode (key : UInt64) {f : SetNode T → SetNode T} (hkey : ∀ n, (f n).key = n.key)
    (htypes : ∀ n, (f n).types = n.types)
    (hhoused : ∀ n, n.types.Wf → Archetype.Indexes c.registry n.types → n.Housed c.registry →
      (f n).Housed c.registry) : (c.modifyNode key f).Keyed := by
  unfold Catalog.modifyNode
  split
  · refine ⟨h.registry, (hkey _).trans h.root_key, (htypes _).trans h.root_types, ?_, h.nodes⟩
    obtain ⟨hwf, hidx, hold⟩ := h.node_types (if_pos rfl : c.node? rootKey = some c.root)
    exact hhoused _ hwf hidx hold
  · refine ⟨h.registry, h.root_key, h.root_types, h.root_housed, h.nodes.map ?_ ?_ ?_⟩
    · intro n
      split
      · exact hkey n
      · rfl
    · intro n
      split
      · exact htypes n
      · rfl
    · intro n hn
      have hold := h.nodes.housed n hn
      split
      · exact hhoused n (h.nodes.nodes n hn).types (h.nodes.nodes n hn).indexed hold
      · exact hold

theorem link (source target : UInt64) : (c.link source target).Keyed := by
  refine h.modifyNode source (fun n => SetNode.key_link n target)
    (fun n => SetNode.types_link n target) fun n _ _ hold a ha => ?_
  rw [SetNode.archetype_link] at ha
  rw [SetNode.types_link]
  exact hold a ha

theorem withStore (store : RowStore T V) : Keyed { c with store } :=
  ⟨h.registry, h.root_key, h.root_types, h.root_housed, h.nodes⟩

theorem materialize (key : UInt64) : (c.materialize key).2.Keyed := by
  rcases c.materialize_cases key with ⟨-, hcase⟩ | ⟨_, -, hcase⟩ | ⟨_, _, -, -, -, hcase⟩ |
    ⟨_, _, store, -, -, -, hcase⟩
  all_goals rw [hcase]
  · exact h
  · exact h
  · exact h
  · refine (h.withStore store).modifyNode key (fun _ => rfl) (fun _ => rfl) ?_
    intro n hwf hidx _ a ha
    cases ha
    exact ⟨Archetype.ofTypes_wf hwf hidx key _, rfl⟩

variable {types : DenseMap T}

/-- The node of a larger set is there, or it is made, unless its key is taken. -/
theorem ensureMulti_cases {key : UInt64} (hnode : (SetNode.create key types).Wf c.registry)
    (hsize : types.size ≠ 1) :
    c.nodes.Taken key types ∧
        c.ensureMulti key types = (.error (.archetypeHashCollision key), c) ∨
      ¬ c.nodes.Taken key types ∧ ∃ nodes, c.ensureMulti key types = (.ok (), { c with nodes }) ∧
        nodes.Keyed c.registry ∧
          ∃ n ∈ nodes.nodes, n.key = key ∧ n.types.keys.toList.Perm types.keys.toList := by
  unfold ensureMulti
  rcases h.nodes.has_cases hnode with ⟨htaken, hhas⟩ |
    ⟨hfree, ⟨n, hn, hkey, hperm, hhas⟩ | ⟨hnew, hhas⟩⟩
  · exact .inl ⟨htaken, by rw [hhas]⟩
  · exact .inr ⟨hfree, c.nodes, by rw [hhas], h.nodes, n, hn, hkey, hperm⟩
  · obtain ⟨nodes₁, hsingles, h₁, honly⟩ :=
      h.nodes.ensureSingles h.registry (show ∀ entry ∈ types.toList,
        c.registry.type? entry.1 = some entry.2 from hnode.indexed)
    -- The nodes that were made on the way have keys of single types.
    have hfree₁ : ¬ nodes₁.Taken key types := by
      rintro ⟨n, hn, hkey, hother⟩
      rcases honly n hn with hold | hone
      · exact hfree ⟨n, hold, hkey, hother⟩
      · have hmulti : key = multiKey (setHash types.sortedKeys) :=
          hnode.key.trans (keyFor_of_size_ne_one hsize)
        exact (h₁.nodes n hn).key_ne_multiKey h.registry hone _ (hkey.trans hmulti)
    obtain ⟨-, nodes₂, hmake, h₂, ⟨n, hn, hkey, hperm⟩, -⟩ :=
      (h₁.ensure_cases hnode).resolve_left fun htaken => hfree₁ htaken.1
    refine .inr ⟨hfree, nodes₂.linkSingles key types.keys.toList, ?_, ?_, ?_⟩
    · simp only [hhas, hsingles, hmake]
    · have hhoused : ∀ n ∈ nodes₂.nodes,
          (NodeTable.linkIf key types.keys.toList n).Housed c.registry := by
        intro n hn a ha
        rw [NodeTable.archetype_linkIf] at ha
        rw [NodeTable.types_linkIf]
        exact h₂.housed n hn a ha
      have hmap := h₂.map (NodeTable.key_linkIf key types.keys.toList)
        (NodeTable.types_linkIf key types.keys.toList) hhoused
      rwa [← NodeTable.linkSingles_nodes] at hmap
    · refine ⟨NodeTable.linkIf key types.keys.toList n, ?_, ?_, ?_⟩
      · rw [NodeTable.linkSingles_nodes]
        exact List.mem_map_of_mem hn
      · rw [NodeTable.key_linkIf, hkey]
      · rwa [NodeTable.types_linkIf]

variable [DecidableEq T]

omit h in
/-- The key and the types that are told for a list make up a node. -/
theorem node_of_keyOf (hreg : c.registry.Wf) {ts : List T} (hne : ts ≠ []) {key : UInt64}
    {registry : TypeRegistry T} (hkey : c.registry.keyOf ts = (.ok (key, types), registry)) :
    (SetNode.create key types).Wf registry ∧ types.size = ts.length := by
  obtain ⟨-, -, hwf, hidx, hmap, rfl⟩ := TypeRegistry.keyOf_ok hreg hne hkey
  have hlen : types.size = ts.length := by
    rw [← hwf.length_toList, ← hmap, List.length_map]
  refine ⟨⟨hwf, hidx, fun hnil => hne ?_, rfl⟩, hlen⟩
  rw [DenseMap.size, ← Array.length_toList, show types.keys.toList = [] from hnil] at hlen
  exact List.length_eq_zero_iff.mp hlen.symm

/-- A node whose key can be told is answered, unless the key is taken. -/
theorem ensureNode_cases {ts : List T} (hne : ts ≠ []) {key : UInt64}
    {registry : TypeRegistry T} (hkey : c.registry.keyOf ts = (.ok (key, types), registry)) :
    c.nodes.Taken key types ∧
        c.ensureNode ts = (.error (.archetypeHashCollision key), { c with registry }) ∨
      ¬ c.nodes.Taken key types ∧ ∃ nodes,
        c.ensureNode ts = (.ok key, { c with registry, nodes }) ∧ nodes.Keyed registry ∧
          ∃ n ∈ nodes.nodes, n.key = key ∧ n.types.keys.toList.Perm types.keys.toList := by
  obtain ⟨hreg, hext, -⟩ := TypeRegistry.keyOf_ok h.registry hne hkey
  obtain ⟨hnode, -⟩ := node_of_keyOf h.registry hne hkey
  have h₁ := h.withRegistry hreg hext
  obtain ⟨t, rest, rfl⟩ := List.exists_cons_of_ne_nil hne
  unfold ensureNode
  simp only [hkey]
  by_cases hone : types.size = 1
  · obtain ⟨index, hkeys⟩ := (single_or_several types).resolve_right fun hmany => hmany hone
    have hfree := h₁.nodes.not_taken_of_single hnode hreg hkeys
    obtain ⟨-, nodes, hmake, hnodes, hfound, -⟩ :=
      (h₁.nodes.ensure_cases hnode).resolve_left fun htaken => hfree htaken.1
    exact .inr ⟨hfree, nodes, by simp only [hone, if_true, hmake], hnodes, hfound⟩
  · rcases h₁.ensureMulti_cases hnode hone with ⟨htaken, hmake⟩ | ⟨hfree, nodes, hmake, hrest⟩
    · exact .inl ⟨htaken, by simp only [hone, if_false, hmake]⟩
    · exact .inr ⟨hfree, nodes, by simp only [hone, if_false, hmake], hrest⟩

theorem ensureNode (ts : List T) : (c.ensureNode ts).2.Keyed := by
  cases ts with
  | nil => exact h
  | cons t rest =>
    cases hkey : c.registry.keyOf (t :: rest) with
    | mk answer registry =>
      cases answer with
      | error e =>
        obtain ⟨hreg, hext, -⟩ := TypeRegistry.keyOf_error h.registry (by simp) hkey
        simp only [Catalog.ensureNode, hkey]
        exact h.withRegistry hreg hext
      | ok answer =>
        obtain ⟨hreg, hext, -⟩ := TypeRegistry.keyOf_ok h.registry (by simp) hkey
        rcases h.ensureNode_cases (by simp) hkey with ⟨-, hnode⟩ | ⟨-, nodes, hnode, hnodes, -⟩
        · rw [hnode]
          exact h.withRegistry hreg hext
        · rw [hnode]
          exact h.withNodes hreg hext hnodes

theorem perform (call : TypeRegistry.Call T) :
    Keyed { c with registry := c.registry.perform call } := by
  obtain ⟨hreg, hext⟩ := TypeRegistry.perform_wf h.registry call
  exact h.withRegistry hreg hext

end Keyed

theorem create_keyed {settings : Settings} {c : Catalog T V} (h : create settings = .ok c) :
    c.Keyed := by
  obtain ⟨registry, format, hregistry, -, rfl⟩ := create_eq h
  exact ⟨TypeRegistry.create_wf hregistry, rfl, rfl, SetNode.create_housed _ _ _,
    fun _ hn => (nomatch hn), fun _ hn => (nomatch hn), List.nodup_nil⟩

/-! ### Every catalog -/

variable [DecidableEq T]

/-- The catalogs that any use leads to, refused requests included. -/
inductive Evolved (settings : Settings) : Catalog T V → Prop where
  | create {c : Catalog T V} (made : Catalog.create settings = .ok c) : Evolved settings c
  /-- Types are given their indices by themselves. -/
  | register {c : Catalog T V} (call : TypeRegistry.Call T) (before : Evolved settings c) :
      Evolved settings { c with registry := c.registry.perform call }
  /-- The node of a component set is asked for. -/
  | node {c : Catalog T V} (ts : List T) (before : Evolved settings c) :
      Evolved settings (c.ensureNode ts).2
  /-- The archetype of a node is asked for. -/
  | archetype {c : Catalog T V} (key : UInt64) (before : Evolved settings c) :
      Evolved settings (c.materialize key).2
  /-- A node is linked to another one, whatever their sets are. -/
  | link {c : Catalog T V} (source target : UInt64) (before : Evolved settings c) :
      Evolved settings (c.link source target)
  /-- Anything happens to the rows. -/
  | rows {c : Catalog T V} (store : RowStore T V) (before : Evolved settings c) :
      Evolved settings { c with store }

namespace Evolved

variable {settings : Settings} {c : Catalog T V} (h : Evolved settings c)

include h

theorem keyed : c.Keyed := by
  induction h with
  | create made => exact create_keyed made
  | register call _ ih => exact ih.perform call
  | node ts _ ih => exact ih.ensureNode ts
  | archetype key _ ih => exact ih.materialize key
  | link source target _ ih => exact ih.link source target
  | rows store _ ih => exact ih.withStore store

/-- Asking for the archetype of a component set is asking for its node first. -/
theorem ensure (ts : List T) : Evolved settings (c.ensure ts).2 := by
  have hnode := h.node ts
  unfold Catalog.ensure
  cases hanswer : c.ensureNode ts with
  | mk answer c₁ =>
    rw [hanswer] at hnode
    cases answer with
    | error e => exact hnode
    | ok key => exact hnode.archetype key

/-- Components are brought into slot order exactly when they fit, in every archetype that
there is. -/
theorem reordering_exact {key : UInt64} {a : Archetype T} (ha : c.archetype? key = some a)
    {α : Type} (components : List (T × α)) : a.ReordersExactly c.registry components :=
  (h.keyed.archetype_wf ha).reordersExactly h.keyed.registry components

end Evolved

/-- The archetype of both types is asked for, and its node is linked to itself. -/
def paired (c : Catalog Sample Nat) : Catalog Sample Nat :=
  (c.ensure [.velocity, .position]).2.link (multiKey 33) (multiKey 33)

theorem Evolved.reordering_exact_paired : ∃ (c : Catalog Sample Nat) (a : Archetype Sample),
    Evolved .default (paired c) ∧ (paired c).archetype? (multiKey 33) = some a ∧
      a.ReordersExactly (paired c).registry [(.position, 7), (.position, 8)] := by
  have hmade : ((Catalog.create .default : Except StoreError (Catalog Sample Nat)).map fun c =>
      ((paired c).archetype? (multiKey 33)).isSome) = .ok true := by decide +kernel
  cases hcreate : (Catalog.create .default : Except StoreError (Catalog Sample Nat)) with
  | error e =>
    rw [hcreate] at hmade
    cases hmade
  | ok c =>
    rw [hcreate] at hmade
    obtain ⟨a, ha⟩ := Option.isSome_iff_exists.mp (Except.ok.inj hmade)
    have hevolved : Evolved .default (paired c) := .link _ _ ((Evolved.create hcreate).ensure _)
    exact ⟨c, a, hevolved, ha, hevolved.reordering_exact ha _⟩

end Catalog

/-! ### The catalogs of worlds -/

namespace World

variable [DecidableEq T] [ComponentType T]

theorem requested_evolved {settings : Settings} {w : World T V}
    (h : Catalog.Evolved settings w.catalog) (event : Event T V) :
    Catalog.Evolved settings (w.requested event) := by
  unfold requested
  split
  · rename_i m
    exact (h.register (.memory m)).rows (w.store.withMemory m)
  · exact h.register (.register _)
  · exact h.node _
  · split
    · exact h.ensure _
    · exact h

/-- Calls to a world do nothing to its catalog that could not be done to a catalog by
itself. -/
theorem after_evolved {number : Nat} {settings : Settings} {w : World T V}
    (made : World.create number settings = .ok w) (events : List (Event T V)) :
    Catalog.Evolved settings (w.after events).catalog := by
  refine after_preserves (P := fun w => Catalog.Evolved settings w.catalog)
    (fun w event hs h => ?_) (create_sound made).1 ?_ events
  · rw [(next_keeps hs event).catalog]
    exact (requested_evolved h event).rows _
  · obtain ⟨c, hcatalog, rfl⟩ := create_eq made
    exact .create hcatalog

end World

end ArchetypeStore

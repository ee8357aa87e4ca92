import ArchetypeStore.Proofs.Catalog.Find
import ArchetypeStore.Proofs.Catalog.Requests
import ArchetypeStore.Proofs.Sample

/-! # Finding after any requests

  The graph of sets stays right whatever is asked of a catalog, in whatever order, and
  whatever was refused in between. So a search through links answers like a search through
  all nodes that looks at the set of each.
-/

namespace ArchetypeStore

variable {T V : Type}

/-- Is the type one of the set of the node? -/
def SetNode.contains [DecidableEq T] (n : SetNode T) (t : T) : Bool := n.types.values.contains t

theorem SetNode.Wf.holds_iff [DecidableEq T] {registry : TypeRegistry T} {n : SetNode T}
    (h : n.Wf registry) (t : T) : n.Holds registry t ↔ n.contains t = true := by
  have hlayout := Archetype.mem_layoutOf h.types h.indexed (t := t)
  rw [(Archetype.layoutOf_perm h.types).mem_iff, h.types.values_toList] at hlayout
  rw [Holds, ← hlayout]
  simp [contains]

namespace Catalog

variable [DecidableEq T] [ComponentType T]

/-! ### Every catalog -/

/-- The catalogs that requests lead to, refused ones included. -/
inductive Reachable (settings : Settings) : Catalog T V → Prop where
  | create {c : Catalog T V} (made : Catalog.create settings = .ok c) : Reachable settings c
  /-- A type is given its index by itself. -/
  | register {c : Catalog T V} (t : T) (before : Reachable settings c) :
      Reachable settings (c.register t)
  /-- The node of a component set is asked for. -/
  | node {c : Catalog T V} (ts : List T) (before : Reachable settings c) :
      Reachable settings (c.ensureNode ts).2
  /-- The archetype of a component set is asked for, which may be that of a bundle. -/
  | archetype {c : Catalog T V} (ts : List T) (before : Reachable settings c) :
      Reachable settings (c.ensure ts).2
  /-- From now on memory answers in another way. -/
  | memory {c : Catalog T V} (m : Memory) (before : Reachable settings c) :
      Reachable settings (c.withMemory m)

theorem Reachable.sound {settings : Settings} {c : Catalog T V} (h : Reachable settings c) :
    c.Wf ∧ c.store.Sound [] := by
  induction h with
  | create made =>
    obtain ⟨hwf, hvalid, hempty⟩ := create_wf made
    refine ⟨hwf, ?_⟩
    rw [hempty]
    exact RowStore.empty_sound hvalid
  | register t _ ih => exact ⟨(register_wf ih.1 t).1, ih.2⟩
  | node ts _ ih =>
    refine ⟨(ensureNode_wf ih.1 ts).1, ?_⟩
    rw [(ensureNode_adds ih.1.registry ts).store]
    exact ih.2
  | archetype ts _ ih =>
    obtain ⟨hwf, hstore, -⟩ := ensure_sound ih.1 ih.2 ts
    exact ⟨hwf, hstore⟩
  | memory m _ ih => exact ⟨(ih.1.withMemory m).1, ih.2.withMemory m⟩

/-! ### Exactness -/

/-- The nodes whose sets have every type listed; where none is listed there is none. -/
def supersets (c : Catalog T V) (ts : List T) : List (SetNode T) :=
  if ts.isEmpty then [] else c.nodes.nodes.filter fun n => ts.all n.contains

/-- What a search is to find: each node with every type listed, once, and the archetypes of
these nodes as far as they were needed before. -/
structure FindsExactly (c : Catalog T V) (ts : List T) : Prop where
  /-- A key names one node. -/
  named : (c.nodes.nodes.map (·.key)).Nodup
  /-- The root is none of the nodes that may be found. -/
  rooted : ∀ n ∈ c.nodes.nodes, n.key ≠ c.root.key
  nodes : (c.find ts).Perm ((c.supersets ts).map (·.key))
  archetypes : (c.findArchetypes ts).Perm ((c.supersets ts).filterMap (·.archetype))

variable {c : Catalog T V}

omit [ComponentType T] in
theorem supersets_sublist (ts : List T) : (c.supersets ts).Sublist c.nodes.nodes := by
  unfold supersets
  split
  · exact List.nil_sublist _
  · exact List.filter_sublist

theorem mem_find_iff_supersets (h : c.Wf) (ts : List T) (key : UInt64) :
    key ∈ c.find ts ↔ key ∈ (c.supersets ts).map (·.key) := by
  cases ts with
  | nil => simp [find, supersets]
  | cons t rest =>
    have hmem : ∀ n ∈ c.nodes.nodes, n.key ∈ c.find (t :: rest) ↔
        n ∈ c.supersets (t :: rest) := by
      intro n hn
      rw [mem_find_iff h (List.cons_ne_nil t rest) hn]
      simp [supersets, hn, (h.nodes.nodes n hn).holds_iff]
    constructor
    · intro hkey
      obtain ⟨n, hn, rfl⟩ := node_of_find h hkey
      exact List.mem_map_of_mem ((hmem n hn).mp hkey)
    · intro hkey
      obtain ⟨n, hn, rfl⟩ := List.mem_map.mp hkey
      exact (hmem n ((supersets_sublist _).subset hn)).mpr hn

theorem find_perm (h : c.Wf) (ts : List T) :
    (c.find ts).Perm ((c.supersets ts).map (·.key)) := by
  have hnodup : ((c.supersets ts).map (·.key)).Nodup :=
    h.nodes.keys_nodup.sublist ((supersets_sublist ts).map _)
  rw [List.perm_ext_iff_of_nodup (find_nodup h ts) hnodup]
  exact mem_find_iff_supersets h ts

omit [DecidableEq T] in
/-- The archetype under the key of a node is that of the node. -/
theorem archetype?_key (h : c.Wf) {n : SetNode T} (hn : n ∈ c.nodes.nodes) :
    c.archetype? n.key = n.archetype := by
  have hroot := (h.nodes.nodes n hn).key_ne_rootKey h.registry
  rw [archetype?, node?, if_neg hroot, h.nodes.get?_eq_some_iff.mpr ⟨hn, rfl⟩, Option.bind_some]

theorem findArchetypes_perm (h : c.Wf) (ts : List T) :
    (c.findArchetypes ts).Perm ((c.supersets ts).filterMap (·.archetype)) := by
  have hsame : ((c.supersets ts).map (·.key)).filterMap c.archetype? =
      (c.supersets ts).filterMap (·.archetype) := by
    have hmap : (c.supersets ts).map (fun n => c.archetype? n.key) =
        (c.supersets ts).map (·.archetype) :=
      List.map_congr_left fun n hn => archetype?_key h ((supersets_sublist ts).subset hn)
    simpa [List.filterMap_map, Function.comp_def] using congrArg (List.filterMap id) hmap
  rw [← hsame]
  exact (find_perm h ts).filterMap c.archetype?

/-- A search is exact in every catalog that requests lead to. -/
theorem find_exact {settings : Settings} (h : Reachable settings c) (ts : List T) :
    c.FindsExactly ts := by
  obtain ⟨hwf, -⟩ := h.sound
  refine ⟨hwf.nodes.keys_nodup, fun n hn => ?_, find_perm hwf ts, findArchetypes_perm hwf ts⟩
  rw [hwf.root_key]
  exact (hwf.nodes.nodes n hn).key_ne_rootKey hwf.registry

/-- The larger set is asked for first, then one of its types twice in one list, which is
refused, then the node of the other type. -/
def asked (c : Catalog Sample Nat) : Catalog Sample Nat :=
  let c := (c.ensure [.velocity, .position]).2
  let c := (c.ensure [.position, .position]).2
  (c.ensureNode [.velocity]).2

theorem find_exact_asked : ∃ c : Catalog Sample Nat, Reachable .default (asked c) ∧
    (asked c).FindsExactly [.position, .velocity, .position] := by
  obtain ⟨c, hcreate⟩ : ∃ c : Catalog Sample Nat, Catalog.create .default = .ok c :=
    exists_of_isOk (by decide)
  have hreach : Reachable .default (asked c) :=
    .node _ (.archetype _ (.archetype _ (.create hcreate)))
  exact ⟨c, hreach, find_exact hreach _⟩

end Catalog

end ArchetypeStore

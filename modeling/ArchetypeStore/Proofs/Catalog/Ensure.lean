import ArchetypeStore.Proofs.Catalog.Sound

/-! # Making an archetype ready

  Asking for the archetype of a list of types yields one with exactly these types, made if
  it is new. A request is refused when a type is listed twice or when the store cannot
  grow. In both cases the catalog only grows.
-/

namespace ArchetypeStore.Catalog

variable {T V : Type} [ComponentType T]

/-! ### Giving a node its archetype -/

omit [ComponentType T] in
theorem node?_modifyNode {c : Catalog T V} {f : SetNode T → SetNode T}
    (hf : ∀ n, (f n).key = n.key) (key key' : UInt64) :
    (c.modifyNode key f).node? key' =
      if key' = key then (c.node? key').map f else c.node? key' := by
  unfold modifyNode node?
  by_cases hroot : key = rootKey
  · rw [if_pos hroot]
    by_cases hkey' : key' = rootKey
    · simp only [hkey', hroot, if_true, Option.map_some]
    · have hne : key' ≠ key := fun heq => hkey' (heq.trans hroot)
      simp only [hkey', hne, if_false]
  · rw [if_neg hroot]
    by_cases hkey' : key' = rootKey
    · have hne : key' ≠ key := fun heq => hroot (heq.symm.trans hkey')
      rw [if_neg hne, if_pos hkey', if_pos hkey']
    · simp only [hkey', if_false]
      exact NodeTable.get?_modify _ hf key key'

omit [ComponentType T] in
@[simp] theorem store_modifyNode (c : Catalog T V) (key : UInt64) (f : SetNode T → SetNode T) :
    (c.modifyNode key f).store = c.store := by
  unfold modifyNode
  split <;> rfl

omit [ComponentType T] in
@[simp] theorem registry_modifyNode (c : Catalog T V) (key : UInt64) (f : SetNode T → SetNode T) :
    (c.modifyNode key f).registry = c.registry := by
  unfold modifyNode
  split <;> rfl

/-- A node gets an archetype, and the store is the one that has its partition. -/
def give (c : Catalog T V) (store : RowStore T V) (key : UInt64) (partition : Nat) :
    Catalog T V :=
  { c with store }.modifyNode key fun n =>
    { n with archetype := some (.ofTypes key n.types partition) }

section give

omit [ComponentType T]

variable (c : Catalog T V) (store : RowStore T V) (key : UInt64) (partition : Nat)

@[simp] theorem registry_give : (c.give store key partition).registry = c.registry :=
  registry_modifyNode ..

@[simp] theorem store_give : (c.give store key partition).store = store := store_modifyNode ..

theorem root_give : (c.give store key partition).root.key = c.root.key ∧
    (c.give store key partition).root.types = c.root.types ∧
    (c.give store key partition).root.links = c.root.links := by
  unfold give modifyNode
  split <;> exact ⟨rfl, rfl, rfl⟩

theorem node?_give (key' : UInt64) : (c.give store key partition).node? key' =
    if key' = key then
      (c.node? key').map fun n => { n with archetype := some (.ofTypes key n.types partition) }
    else c.node? key' := by
  unfold give
  refine node?_modifyNode ?_ key key'
  exact fun _ => rfl

theorem archetype?_give_other {key' : UInt64} (hne : key' ≠ key) :
    (c.give store key partition).archetype? key' = c.archetype? key' := by
  rw [archetype?, node?_give, if_neg hne, archetype?]

theorem archetype?_give {n : SetNode T} (hn : c.node? key = some n) :
    (c.give store key partition).archetype? key = some (.ofTypes key n.types partition) := by
  rw [archetype?, node?_give, if_pos rfl, hn]
  rfl

theorem nodes_give (h : c.nodes.Wf c.registry) :
    (c.give store key partition).nodes.Wf c.registry := by
  unfold give modifyNode
  split
  · exact h
  · refine h.congr_archetypes fun n => ?_
    split <;> exact ⟨rfl, rfl, rfl⟩

end give

section giving

variable {c : Catalog T V} (h : c.Wf) {store : RowStore T V}
  (hspreads : c.store.Spreads store) {key : UInt64} {n : SetNode T}
  (hn : c.node? key = some n) {partition : Nat}

include h hspreads hn

/-- The archetype of the node is made for its types, with a partition of its own. -/
theorem Wf.give (hnew : c.store.layout? partition = none)
    (hlayout : store.layout? partition = some (Archetype.layoutOf n.types)) :
    (c.give store key partition).Wf := by
  obtain ⟨hkey, htypes, hlinks⟩ := root_give c store key partition
  have hgiven := archetype?_give c store key partition hn
  refine ⟨?_, hkey.trans h.root_key, htypes.trans h.root_types, hlinks.trans h.root_links, ?_, ?_,
    ?_⟩
  · rw [registry_give]
    exact h.registry
  · rw [registry_give]
    exact nodes_give c store key partition h.nodes
  · intro key' a ha
    rw [node?_give, store_give]
    by_cases heq : key' = key
    · subst heq
      rw [hgiven] at ha
      cases ha
      refine ⟨{ n with archetype := some (.ofTypes key' n.types partition) }, ?_, rfl, hlayout⟩
      rw [if_pos rfl, hn]
      rfl
    · rw [archetype?_give_other c store key partition heq] at ha
      obtain ⟨m, hm, hof, hlay⟩ := h.archetypes key' a ha
      exact ⟨m, by rw [if_neg heq]; exact hm, hof, hspreads.layout _ _ hlay⟩
  · -- A partition in use has columns, so it is not the new one.
    have hused : ∀ {key' a}, key' ≠ key → (c.give store key partition).archetype? key' = some a →
        a.partition ≠ partition := by
      rintro key' a hne ha rfl
      rw [archetype?_give_other c store key _ hne] at ha
      rw [(h.archetype_wf ha).2.2] at hnew
      cases hnew
    intro key₁ key₂ a₁ a₂ ha₁ ha₂ hpartition
    by_cases heq₁ : key₁ = key
    · by_cases heq₂ : key₂ = key
      · rw [heq₁, heq₂]
      · rw [heq₁, hgiven] at ha₁
        cases ha₁
        exact absurd hpartition.symm (hused heq₂ ha₂)
    · by_cases heq₂ : key₂ = key
      · rw [heq₂, hgiven] at ha₂
        cases ha₂
        exact absurd hpartition (hused heq₁ ha₁)
      · rw [archetype?_give_other c store key partition heq₁] at ha₁
        rw [archetype?_give_other c store key partition heq₂] at ha₂
        exact h.partitions key₁ key₂ a₁ a₂ ha₁ ha₂ hpartition

omit [ComponentType T] h in
/-- The node had no archetype, so none is replaced. -/
theorem Grows.give (hnone : n.archetype = none) : c.Grows (c.give store key partition) := by
  refine ⟨?_, fun key' a ha => ?_, ?_⟩
  · rw [registry_give]
    exact .refl _
  · have hne : key' ≠ key := by
      rintro rfl
      rw [archetype?, hn, Option.bind_some, hnone] at ha
      cases ha
    rw [archetype?_give_other c store key partition hne]
    exact ha
  · rw [store_give]
    exact hspreads

end giving

/-! ### Materializing a node -/

/-- Asking for the archetype of a node changes a catalog only when the archetype is new and
there is memory for its first chunk. -/
theorem materialize_cases (c : Catalog T V) (key : UInt64) :
    (c.node? key = none ∧ c.materialize key = (.error .entityNotFound, c)) ∨
      (∃ a, c.archetype? key = some a ∧ c.materialize key = (.ok a, c)) ∨
      (∃ n e, c.node? key = some n ∧ c.archetype? key = none ∧
        c.store.newPartition (Archetype.layoutOf n.types) = (.error e, c.store) ∧
        c.materialize key = (.error e, c)) ∨
      ∃ n partition store, c.node? key = some n ∧ c.archetype? key = none ∧
        c.store.newPartition (Archetype.layoutOf n.types) = (.ok partition, store) ∧
        c.materialize key =
          (.ok (.ofTypes key n.types partition), c.give store key partition) := by
  unfold materialize archetype?
  cases hn : c.node? key with
  | none => exact .inl ⟨rfl, rfl⟩
  | some n =>
    dsimp only [Option.bind_some]
    cases ha : n.archetype with
    | some a => exact .inr (.inl ⟨a, rfl, rfl⟩)
    | none =>
      dsimp only
      cases hnew : c.store.newPartition (Archetype.layoutOf n.types) with
      | mk answer store =>
        cases answer with
        | error e =>
          obtain ⟨rfl, -⟩ := RowStore.newPartition_error hnew
          exact .inr (.inr (.inl ⟨n, e, rfl, rfl, hnew, rfl⟩))
        | ok partition => exact .inr (.inr (.inr ⟨n, partition, store, rfl, rfl, hnew, rfl⟩))

theorem materialize_ok {c c' : Catalog T V} (h : c.Wf) (hs : c.store.Sound [])
    {key : UInt64} {n : SetNode T} (hn : c.node? key = some n) {a : Archetype T}
    (hmat : c.materialize key = (.ok a, c')) :
    c'.Wf ∧ c'.store.Sound [] ∧ c.Grows c' ∧ c'.archetype? key = some a ∧
      a.types = Archetype.layoutOf n.types := by
  rcases c.materialize_cases key with ⟨-, hcase⟩ | ⟨a', ha, hcase⟩ | ⟨_, _, -, -, -, hcase⟩ |
    ⟨n', partition, store, hn', hnone, hnew, hcase⟩
  all_goals
    rw [hcase] at hmat
    cases hmat
  · obtain ⟨m, hm, heq, -⟩ := h.archetypes key a ha
    rw [hn] at hm
    cases hm
    exact ⟨h, hs, .refl _, ha, by rw [heq]; rfl⟩
  · obtain rfl : n' = n := Option.some.inj (hn'.symm.trans hn)
    obtain ⟨hsize, -, -, -⟩ := RowStore.newPartition_ok hnew
    have hunused : c.store.layout? partition = none := by
      rw [RowStore.layout?, hsize, Array.getElem?_eq_none (Nat.le_refl _)]
      rfl
    have hlayout : store.layout? partition = some (Archetype.layoutOf n'.types) := by
      rw [RowStore.layout?_newPartition hnew, if_pos rfl]
    have hsound : (c.give store key partition).store.Sound [] := by
      rw [store_give]
      exact RowStore.newPartition_sound hnew hs
    have harchetype : n'.archetype = none := by rwa [archetype?, hn] at hnone
    exact ⟨h.give (.of_newPartition hnew) hn hunused hlayout, hsound,
      .give (.of_newPartition hnew) hn harchetype, archetype?_give c store key partition hn, rfl⟩

theorem materialize_error {c c' : Catalog T V} {key : UInt64} {n : SetNode T}
    (hn : c.node? key = some n) {e : StoreError}
    (hmat : c.materialize key = (.error e, c')) : c' = c ∧ e.StopsGrowth := by
  rcases c.materialize_cases key with ⟨hnone, -⟩ | ⟨_, -, hcase⟩ | ⟨_, _, -, -, hnew, hcase⟩ |
    ⟨_, _, _, -, -, -, hcase⟩
  · rw [hn] at hnone
    cases hnone
  all_goals
    rw [hcase] at hmat
    cases hmat
  exact ⟨rfl, (RowStore.newPartition_error hnew).2.stopsGrowth⟩

/-! ### Making nodes -/

omit [ComponentType T] in
/-- Sets with the same indices have the same columns. -/
theorem layoutOf_congr {registry : TypeRegistry T} {types types' : DenseMap T}
    (hwf : types.Wf) (hidx : Archetype.Indexes registry types) (hwf' : types'.Wf)
    (hidx' : Archetype.Indexes registry types')
    (hperm : types.keys.toList.Perm types'.keys.toList) :
    Archetype.layoutOf types = Archetype.layoutOf types' := by
  have hsorted := hwf.sortedKeys_congr hwf' hperm
  have hl := Archetype.lists_layoutOf hwf hidx
  have hl' := Archetype.lists_layoutOf hwf' hidx'
  unfold TypeRegistry.Lists at hl hl'
  rw [hsorted, hl'] at hl
  exact (List.map_inj_right fun x y hxy => Option.some.inj hxy).mp hl.symm

/-- The node of a larger set, made with the nodes of its types. -/
theorem ensureMulti_ok {c c' : Catalog T V} (h : c.Wf) {types : DenseMap T} (hwf : types.Wf)
    (hidx : Archetype.Indexes c.registry types) (hne : types.keys.toList ≠ [])
    (hsize : types.size ≠ 1) (hensure : c.ensureMulti (keyFor types) types = (.ok (), c')) :
    c'.Wf ∧ c.Grows c' ∧ c'.registry = c.registry ∧ c'.store = c.store ∧
      ∃ n ∈ c'.nodes.nodes, n.key = keyFor types ∧
        n.types.keys.toList.Perm types.keys.toList := by
  unfold ensureMulti at hensure
  split at hensure
  · cases hensure
  · rename_i hhas
    cases hensure
    -- The node is there already, and nothing changes.
    obtain ⟨n, hget, hsame⟩ := NodeTable.has_true hhas
    obtain ⟨hn, hkey⟩ := h.nodes.get?_eq_some_iff.mp hget
    exact ⟨h, .refl _, rfl, rfl, n, hn, hkey,
      SetNode.hasTypes_perm (h.nodes.nodes n hn).types hwf hsame⟩
  · rename_i hhas
    have hnone := NodeTable.has_false hhas
    split at hensure
    · cases hensure
    · rename_i nodes₁ hsingles
      obtain ⟨h₁, hgrows₁, hall, honly⟩ := NodeTable.ensureSingles_ok h.nodes hidx hsingles
      -- The nodes that were made have keys of single types.
      have hnone₁ : nodes₁.get? (keyFor types) = none := by
        rw [NodeTable.get?_eq_none_iff]
        intro n hn hkey
        rcases honly n hn with hone | hold
        · obtain ⟨index, hkeys⟩ : ∃ index, n.types.keys.toList = [index] :=
            (single_or_several n.types).resolve_right fun hmany => hmany hone
          have hbounds := (h₁.nodes n hn).index_bounds h.registry
            (hkeys ▸ List.mem_singleton.mpr rfl)
          rw [(h₁.nodes n hn).key, keyFor_of_single hkeys, keyFor_of_size_ne_one hsize] at hkey
          exact multiKey_ne_indexKey _ hbounds.2 hkey.symm
        · exact NodeTable.get?_eq_none_iff.mp hnone n hold hkey
      have hhas₁ : nodes₁.has (keyFor types) types = .ok false := by
        rw [NodeTable.has, hnone₁]
      have hmake : nodes₁.ensure (keyFor types) types =
          (.ok (), ⟨nodes₁.nodes ++ [SetNode.create (keyFor types) types]⟩) := by
        rw [NodeTable.ensure, hhas₁]
      rw [hmake] at hensure
      cases hensure
      have hnodes := h₁.addSeveral h.registry hwf hidx hne hsize (fun index hindex => by
        rw [← hwf.keys_toList] at hindex
        obtain ⟨entry, hentry, rfl⟩ := List.mem_map.mp hindex
        exact hall entry hentry) hnone₁
      have hgrows := (hgrows₁.trans (.append nodes₁ (keyFor types) types)).trans
        (.linkSingles _ (keyFor types) types.keys.toList)
      obtain ⟨hc, hcgrows⟩ := h.withNodes (.refl _) h.registry hnodes hgrows
      refine ⟨hc, hcgrows, rfl, rfl, ?_⟩
      refine ⟨NodeTable.linkIf (keyFor types) types.keys.toList
        (SetNode.create (keyFor types) types), ?_, ?_, ?_⟩
      · rw [NodeTable.linkSingles_nodes]
        exact List.mem_map_of_mem (List.mem_append_right _ (List.mem_singleton.mpr rfl))
      · rw [NodeTable.key_linkIf]
        rfl
      · rw [NodeTable.types_linkIf]
        exact List.Perm.refl _

theorem ensureMulti_error {c c' : Catalog T V} (h : c.Wf) {key : UInt64} {types : DenseMap T}
    (hidx : Archetype.Indexes c.registry types) {e : StoreError}
    (hensure : c.ensureMulti key types = (.error e, c')) :
    c'.Wf ∧ c.Grows c' ∧ c'.store = c.store ∧ e.StopsGrowth := by
  unfold ensureMulti at hensure
  split at hensure
  · rename_i hhas
    cases hensure
    exact ⟨h, .refl _, rfl, NodeTable.has_error hhas⟩
  · cases hensure
  · split at hensure
    · rename_i nodes₁ hsingles
      cases hensure
      obtain ⟨h₁, hgrows₁, hstops⟩ := NodeTable.ensureSingles_error h.nodes hidx hsingles
      obtain ⟨hc, hcgrows⟩ := h.withNodes (.refl _) h.registry h₁ hgrows₁
      exact ⟨hc, hcgrows, rfl, hstops⟩
    · rename_i nodes₁ hsingles
      obtain ⟨h₁, hgrows₁, -⟩ := NodeTable.ensureSingles_ok h.nodes hidx hsingles
      split at hensure
      · rename_i hmake
        cases hensure
        obtain ⟨rfl, hstops⟩ := NodeTable.ensure_error hmake
        obtain ⟨hc, hcgrows⟩ := h.withNodes (.refl _) h.registry h₁ hgrows₁
        exact ⟨hc, hcgrows, rfl, hstops⟩
      · cases hensure

variable [DecidableEq T]

/-- The node that is found or made is that of the types listed. -/
theorem ensureNode_ok {c c' : Catalog T V} (h : c.Wf) {ts : List T} {key : UInt64}
    (hensure : c.ensureNode ts = (.ok key, c')) :
    c'.Wf ∧ c.Grows c' ∧ c'.store = c.store ∧
      ∃ n, c'.node? key = some n ∧ (Archetype.layoutOf n.types).Perm ts := by
  cases ts with
  | nil =>
    cases hensure
    refine ⟨h, .refl _, rfl, c.root, if_pos rfl, ?_⟩
    rw [h.root_types]
    exact Archetype.layoutOf_perm (DenseMap.withCapacity_wf 0)
  | cons t rest =>
    unfold ensureNode at hensure
    simp only at hensure
    split at hensure
    · cases hensure
    · rename_i key' types registry hkey
      obtain ⟨hreg, hext, hwf, hidx, hmap, rfl⟩ :=
        TypeRegistry.keyOf_ok h.registry (by simp) hkey
      have hkeys : types.keys.toList ≠ [] := by
        intro hnil
        have hlen := congrArg List.length hmap
        rw [List.length_map, hwf.length_toList, DenseMap.size, ← Array.length_toList, hnil] at hlen
        cases hlen
      obtain ⟨hc₁, hgrows₁⟩ := h.withNodes hext hreg (h.nodes.mono hext) (.refl _)
      -- However the node came to be, its columns are the types listed.
      have hfinal : ∀ {d : Catalog T V} {n : SetNode T}, d.Wf → d.registry = registry →
          n ∈ d.nodes.nodes → n.key = keyFor types →
          n.types.keys.toList.Perm types.keys.toList →
          ∃ n, d.node? (keyFor types) = some n ∧
            (Archetype.layoutOf n.types).Perm (t :: rest) := by
        intro d n hd hdreg hn hnkey hperm
        have hnode := hd.nodes.nodes n hn
        refine ⟨n, ?_, ?_⟩
        · rw [node?, if_neg (hnkey ▸ hnode.key_ne_rootKey hd.registry)]
          exact hd.nodes.get?_eq_some_iff.mpr ⟨hn, hnkey⟩
        · have hidx' := hnode.indexed
          rw [hdreg] at hidx'
          rw [layoutOf_congr hnode.types hidx' hwf hidx hperm, ← hmap]
          exact Archetype.layoutOf_perm hwf
      split at hensure
      · rename_i hone
        split at hensure
        · cases hensure
        · rename_i nodes hmake
          cases hensure
          obtain ⟨index, hindex⟩ : ∃ index, types.keys.toList = [index] :=
            (single_or_several types).resolve_right fun hmany => hmany hone
          rw [keyFor_of_single hindex] at hmake
          obtain ⟨hnodes, hgrows, ⟨n, hn, hnkeys⟩, -⟩ :=
            NodeTable.ensure_single (h.nodes.mono hext) hwf hidx hindex hmake
          obtain ⟨hc, hcgrows⟩ := h.withNodes hext hreg hnodes hgrows
          refine ⟨hc, hcgrows, rfl, hfinal hc rfl hn ?_ ?_⟩
          · rw [(hnodes.nodes n hn).key, keyFor_of_single hnkeys, keyFor_of_single hindex]
          · rw [hnkeys, hindex]
      · rename_i hmany
        split at hensure
        · cases hensure
        · rename_i c₂ hmake
          cases hensure
          obtain ⟨hc, hcgrows, hcreg, hcstore, n, hn, hnkey, hperm⟩ :=
            ensureMulti_ok hc₁ hwf hidx hkeys hmany hmake
          exact ⟨hc, hgrows₁.trans hcgrows, hcstore, hfinal hc hcreg hn hnkey hperm⟩

theorem ensureNode_error {c c' : Catalog T V} (h : c.Wf) {ts : List T} {e : StoreError}
    (hensure : c.ensureNode ts = (.error e, c')) :
    c'.Wf ∧ c.Grows c' ∧ c'.store = c.store ∧ TypeRegistry.RefusesSet ts e := by
  cases ts with
  | nil => cases hensure
  | cons t rest =>
    unfold ensureNode at hensure
    simp only at hensure
    split at hensure
    · rename_i hkey
      cases hensure
      obtain ⟨hreg, hext, hwhy⟩ := TypeRegistry.keyOf_error h.registry (by simp) hkey
      obtain ⟨hc, hcgrows⟩ := h.withNodes hext hreg (h.nodes.mono hext) (.refl _)
      exact ⟨hc, hcgrows, rfl, hwhy⟩
    · rename_i key' types registry hkey
      obtain ⟨hreg, hext, hwf, hidx, -, -⟩ :=
        TypeRegistry.keyOf_ok h.registry (by simp) hkey
      obtain ⟨hc₁, hgrows₁⟩ := h.withNodes hext hreg (h.nodes.mono hext) (.refl _)
      split at hensure
      · split at hensure
        · rename_i hmake
          cases hensure
          obtain ⟨rfl, hstops⟩ := NodeTable.ensure_error hmake
          exact ⟨hc₁, hgrows₁, rfl, .inr hstops⟩
        · cases hensure
      · split at hensure
        · rename_i c₂ hmake
          cases hensure
          obtain ⟨hc, hcgrows, hcstore, hstops⟩ := ensureMulti_error hc₁ hidx hmake
          exact ⟨hc, hgrows₁.trans hcgrows, hcstore, .inr hstops⟩
        · cases hensure

/-! ### Archetypes -/

/-- What is answered is the archetype of exactly the types listed. -/
theorem ensure_ok {c c' : Catalog T V} (h : c.Wf) (hs : c.store.Sound []) {ts : List T}
    {a : Archetype T} (hensure : c.ensure ts = (.ok a, c')) :
    c'.Wf ∧ c'.store.Sound [] ∧ c.Grows c' ∧ c'.archetype? a.key = some a ∧
      a.types.Perm ts := by
  unfold ensure at hensure
  split at hensure
  · cases hensure
  · rename_i key c₁ hnode
    obtain ⟨h₁, hgrows₁, hstore₁, n, hn, hperm⟩ := ensureNode_ok h hnode
    obtain ⟨h', hs', hgrows, harch, htypes⟩ :=
      materialize_ok h₁ (by rw [hstore₁]; exact hs) hn hensure
    refine ⟨h', hs', hgrows₁.trans hgrows, ?_, ?_⟩
    · rw [(h'.archetype_wf harch).2.1]
      exact harch
    · rw [htypes]
      exact hperm

theorem ensure_error {c c' : Catalog T V} (h : c.Wf) (hs : c.store.Sound []) {ts : List T}
    {e : StoreError} (hensure : c.ensure ts = (.error e, c')) :
    c'.Wf ∧ c'.store.Sound [] ∧ c.Grows c' ∧ TypeRegistry.RefusesSet ts e := by
  unfold ensure at hensure
  split at hensure
  · rename_i hnode
    cases hensure
    obtain ⟨h', hgrows, hstore, hwhy⟩ := ensureNode_error h hnode
    exact ⟨h', by rw [hstore]; exact hs, hgrows, hwhy⟩
  · rename_i key c₁ hnode
    obtain ⟨h₁, hgrows₁, hstore₁, n, hn, -⟩ := ensureNode_ok h hnode
    obtain ⟨rfl, hstops⟩ := materialize_error hn hensure
    exact ⟨h₁, by rw [hstore₁]; exact hs, hgrows₁, .inr hstops⟩

end ArchetypeStore.Catalog

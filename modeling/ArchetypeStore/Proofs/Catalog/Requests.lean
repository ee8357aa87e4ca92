import ArchetypeStore.Proofs.Catalog.Ensure

/-! # Requests to the catalog

  A request for a component set may be refused, may find the archetype there, or makes the
  one archetype that was missing. In the first two cases types may be registered and nodes
  made, but no archetype and no row is touched. A set whose archetype is there is always
  answered, in whatever order its types are listed, and then the catalog stays as it is. So
  there is one archetype for each set.
-/

namespace ArchetypeStore

variable {T V : Type}

/-! ### Types that are registered -/

namespace TypeRegistry

variable [ComponentType T] {ix : TypeRegistry T}

omit [ComponentType T] in
theorem lists_of_registered {ts : List T} (hall : ∀ t ∈ ts, ∃ index, ix.type? index = some t) :
    ∃ indices, ix.Lists indices ts := by
  induction ts with
  | nil => exact ⟨[], .nil ix⟩
  | cons t rest ih =>
    obtain ⟨index, ht⟩ := hall t (List.mem_cons_self ..)
    obtain ⟨indices, hrest⟩ := ih fun t' ht' => hall t' (List.mem_cons_of_mem _ ht')
    exact ⟨index :: indices, .cons ht hrest⟩

/-- Types in another order have their indices in another order. -/
theorem Lists.perm (h : ix.Wf) {indices indices' : List Nat} {ts ts' : List T}
    (hl : ix.Lists indices ts) (hl' : ix.Lists indices' ts') (hperm : ts.Perm ts')
    (hnodup : ts.Nodup) : indices.Perm indices' := by
  have hsub : ∀ {is is' : List Nat} {us us' : List T}, ix.Lists is us → ix.Lists is' us' →
      us ⊆ us' → is ⊆ is' := by
    intro is is' us us' hus hus' hle index hindex
    obtain ⟨t, ht, htype⟩ := hus.type_of_mem hindex
    obtain ⟨index', hindex', htype'⟩ := hus'.index_of_mem (hle ht)
    rwa [h.index_inj htype htype']
  rw [List.perm_ext_iff_of_nodup ((h.nodup_iff hl).mpr hnodup)
    ((h.nodup_iff hl').mpr (hperm.nodup hnodup))]
  intro index
  exact ⟨fun hmem => hsub hl hl' hperm.subset hmem,
    fun hmem => hsub hl' hl hperm.symm.subset hmem⟩

variable [DecidableEq T]

theorem registerAll_known (h : ix.Wf) {indices : List Nat} {ts : List T}
    (hl : ix.Lists indices ts) : ix.registerAll ts = (.ok indices, ix) := by
  induction ts generalizing indices with
  | nil =>
    cases List.map_eq_nil_iff.mp hl
    rfl
  | cons t rest ih =>
    cases indices with
    | nil => cases hl
    | cons index indices =>
      obtain ⟨ht, hrest⟩ := List.cons.inj hl
      simp [registerAll, register_known h ht, ih hrest]

theorem hashOf_known (h : ix.Wf) {indices : List Nat} {ts : List T} (hl : ix.Lists indices ts)
    (hnodup : ts.Nodup) : ∃ hash, ix.hashOf ts = (.ok hash, ix) := by
  have hbound : ∀ index ∈ indices, index < ix.size + 1 := by
    intro index hindex
    obtain ⟨t, -, ht⟩ := hl.type_of_mem hindex
    exact Nat.lt_succ_of_le (type?_le ht).2
  obtain ⟨sorted, hsort⟩ := CountingSort.sort_of_nodup ((h.nodup_iff hl).mpr hnodup) hbound
  exact ⟨setHash sorted, by simp [hashOf, registerAll_known h hl, hsort]⟩

theorem collect_known (h : ix.Wf) {types : DenseMap T} (hwf : types.Wf)
    (hidx : Archetype.Indexes ix types) {indices : List Nat} {ts : List T}
    (hl : ix.Lists indices ts) (hnodup : indices.Nodup)
    (hnew : ∀ index ∈ indices, types.contains index = false) :
    ∃ types', ix.collect types ts = (.ok types', ix) := by
  induction ts generalizing types indices with
  | nil => exact ⟨types, rfl⟩
  | cons t rest ih =>
    cases indices with
    | nil => cases hl
    | cons index indices =>
      obtain ⟨ht, hrest⟩ := List.cons.inj hl
      obtain ⟨hnotin, hnodup'⟩ := List.nodup_cons.mp hnodup
      have hhead := hnew index (List.mem_cons_self ..)
      have hroom := hidx.room hwf h
      obtain ⟨hnone, hwf', hkeys, -⟩ := DenseMap.insert_of_new hwf hhead hroom t
      have hnew' : ∀ i ∈ indices, (types.insert index t).2.contains i = false := by
        intro i hi
        have hold := hnew i (List.mem_cons_of_mem _ hi)
        rw [← Bool.not_eq_true, hwf.contains_iff] at hold
        rw [← Bool.not_eq_true, hwf'.contains_iff, hkeys, Array.toList_push, List.mem_append,
          List.mem_singleton]
        rintro (hmem | rfl)
        · exact hold hmem
        · exact hnotin hi
      obtain ⟨types', hcollect⟩ := ih hwf' (hidx.insert hwf hhead hroom ht) hrest hnodup' hnew'
      refine ⟨types', ?_⟩
      cases hinsert : types.insert index t with
      | mk old inserted =>
        rw [hinsert] at hnone hcollect
        cases hnone
        simp only [collect, register_known h ht, hinsert, hcollect]

/-- A set of registered types has a key, and nothing is registered on the way. -/
theorem keyOf_known (h : ix.Wf) {indices : List Nat} {ts : List T} (hl : ix.Lists indices ts)
    (hnodup : ts.Nodup) (hne : ts ≠ []) :
    ∃ key types, ix.keyOf ts = (.ok (key, types), ix) := by
  match ts, hne with
  | [t], _ =>
    obtain ⟨index, -, ht⟩ := hl.index_of_mem (List.mem_singleton.mpr rfl)
    exact ⟨_, _, by rw [keyOf_single, register_known h ht]⟩
  | t :: t' :: rest, _ =>
    have hwf := DenseMap.withCapacity_wf (V := T) (ix.size + 1)
    obtain ⟨hash, hhash⟩ := hashOf_known h hl hnodup
    obtain ⟨types, hcollect⟩ := collect_known h hwf (Archetype.indexes_withCapacity _ _) hl
      ((h.nodup_iff hl).mpr hnodup) fun index _ => DenseMap.contains_withCapacity ..
    exact ⟨multiKey hash, types, by simp only [keyOf_several, hhash, hcollect]⟩

end TypeRegistry

/-! ### Nodes that are there -/

theorem SetNode.hasTypes_of_perm {n : SetNode T} {types : DenseMap T} (hn : n.types.Wf)
    (hperm : n.types.keys.toList.Perm types.keys.toList) : n.hasTypes types = true := by
  simp only [hasTypes, Bool.and_eq_true, beq_iff_eq, Array.all_eq_true', DenseMap.size]
  refine ⟨by simpa using hperm.length_eq, fun key hkey => ?_⟩
  rw [hn.contains_iff]
  exact hperm.mem_iff.mpr (Array.mem_toList_iff.mpr hkey)

/-- The key depends on the set alone. -/
theorem keyFor_congr {types types' : DenseMap T} (hwf : types.Wf) (hwf' : types'.Wf)
    (hperm : types.keys.toList.Perm types'.keys.toList) : keyFor types = keyFor types' := by
  rcases single_or_several types with ⟨index, hkeys⟩ | hsize
  · rw [hkeys] at hperm
    rw [keyFor_of_single hkeys, keyFor_of_single (List.singleton_perm.mp hperm).symm]
  · have hsize' : types'.size ≠ 1 := by
      have hlength := hperm.length_eq
      simp only [Array.length_toList] at hlength
      rwa [DenseMap.size, ← hlength]
    rw [keyFor_of_size_ne_one hsize, keyFor_of_size_ne_one hsize', hwf.sortedKeys_congr hwf' hperm]

namespace NodeTable

theorem ensure_grows (table : NodeTable T) (key : UInt64) (types : DenseMap T) :
    table.Grows (table.ensure key types).2 := by
  unfold ensure
  split
  · exact .refl table
  · exact .refl table
  · exact .append table key types

theorem ensureSingles_grows (table : NodeTable T) (entries : List (Nat × T)) :
    table.Grows (table.ensureSingles entries).2 := by
  induction entries generalizing table with
  | nil => exact .refl table
  | cons entry rest ih =>
    have hfirst := table.ensure_grows (UInt64.ofNat entry.1)
      ((DenseMap.withCapacity (entry.1 + 1)).insert entry.1 entry.2).2
    unfold ensureSingles
    split
    · rename_i hmake
      rwa [hmake] at hfirst
    · rename_i table₁ hmake
      rw [hmake] at hfirst
      exact hfirst.trans (ih table₁)

end NodeTable

namespace Catalog

/-! ### Requests that touch no archetype -/

/-- The second catalog has more types registered and more nodes, none of them with an
archetype; all else is the same. -/
structure AddsNodes (c c' : Catalog T V) : Prop where
  registry : c.registry.Extends c'.registry
  store : c'.store = c.store
  root : c'.root = c.root
  nodes : c.nodes.Grows c'.nodes

theorem AddsNodes.refl (c : Catalog T V) : c.AddsNodes c := ⟨.refl _, rfl, rfl, .refl _⟩

theorem AddsNodes.trans {c c' c'' : Catalog T V} (h : c.AddsNodes c') (h' : c'.AddsNodes c'') :
    c.AddsNodes c'' :=
  ⟨h.registry.trans h'.registry, h'.store.trans h.store, h'.root.trans h.root,
    h.nodes.trans h'.nodes⟩

theorem AddsNodes.archetype? [ComponentType T] {c c' : Catalog T V} (hadds : c.AddsNodes c')
    (hnodup : (c.nodes.nodes.map (·.key)).Nodup) (hnodup' : (c'.nodes.nodes.map (·.key)).Nodup)
    (key : UInt64) : c'.archetype? key = c.archetype? key := by
  unfold Catalog.archetype? node?
  split
  · rw [hadds.root]
  · exact hadds.nodes.archetype hnodup hnodup' key

theorem ensureMulti_adds (c : Catalog T V) (key : UInt64) (types : DenseMap T) :
    c.AddsNodes (c.ensureMulti key types).2 := by
  have hsingles := c.nodes.ensureSingles_grows types.toList
  unfold ensureMulti
  split
  · exact .refl c
  · exact .refl c
  · split
    · rename_i hmake
      rw [hmake] at hsingles
      exact ⟨.refl _, rfl, rfl, hsingles⟩
    · rename_i nodes₁ hmake
      rw [hmake] at hsingles
      have hgrows := hsingles.trans (nodes₁.ensure_grows key types)
      split
      · rename_i hlast
        rw [hlast] at hgrows
        exact ⟨.refl _, rfl, rfl, hgrows⟩
      · rename_i nodes₂ hlast
        rw [hlast] at hgrows
        exact ⟨.refl _, rfl, rfl, hgrows.trans (.linkSingles nodes₂ key types.keys.toList)⟩

variable [ComponentType T] [DecidableEq T] {c c' : Catalog T V}

theorem ensureNode_adds (hreg : c.registry.Wf) (ts : List T) :
    c.AddsNodes (c.ensureNode ts).2 := by
  cases ts with
  | nil => exact .refl c
  | cons t rest =>
    unfold ensureNode
    simp only
    split
    · rename_i e registry hkey
      obtain ⟨-, hext, -⟩ := TypeRegistry.keyOf_error hreg (by simp) hkey
      exact ⟨hext, rfl, rfl, .refl _⟩
    · rename_i key types registry hkey
      obtain ⟨-, hext, -⟩ := TypeRegistry.keyOf_ok hreg (by simp) hkey
      have hfirst : c.AddsNodes { c with registry } := ⟨hext, rfl, rfl, .refl _⟩
      split
      · have hgrows := c.nodes.ensure_grows key types
        split
        all_goals
          rename_i hmake
          rw [hmake] at hgrows
          exact ⟨hext, rfl, rfl, hgrows⟩
      · have hmulti := ensureMulti_adds { c with registry } key types
        split
        all_goals
          rename_i hmake
          rw [hmake] at hmulti
          exact hfirst.trans hmulti

/-- Asking for a node leaves all archetypes and rows alone. -/
theorem ensureNode_wf (h : c.Wf) (ts : List T) :
    (c.ensureNode ts).2.Wf ∧ c.Grows (c.ensureNode ts).2 := by
  cases hnode : c.ensureNode ts with
  | mk answer c' =>
    cases answer with
    | error e =>
      obtain ⟨hwf, hgrows, -⟩ := ensureNode_error h hnode
      exact ⟨hwf, hgrows⟩
    | ok key =>
      obtain ⟨hwf, hgrows, -⟩ := ensureNode_ok h hnode
      exact ⟨hwf, hgrows⟩

/-- The catalog after a type was given its index by itself, or was refused one. -/
def register (c : Catalog T V) (t : T) : Catalog T V :=
  { c with registry := (c.registry.register t).2 }

theorem register_adds (h : c.Wf) (t : T) : c.AddsNodes (c.register t) :=
  ⟨(TypeRegistry.register_wf h.registry t).2, rfl, rfl, .refl _⟩

theorem register_wf (h : c.Wf) (t : T) : (c.register t).Wf ∧ c.Grows (c.register t) := by
  obtain ⟨hreg, hext⟩ := TypeRegistry.register_wf h.registry t
  exact h.withNodes hext hreg (h.nodes.mono hext) (.refl _)

/-! ### How a request ends -/

/-- A request keeps the invariant, and what was there. -/
theorem ensure_sound (h : c.Wf) (hs : c.store.Sound []) (ts : List T) :
    (c.ensure ts).2.Wf ∧ (c.ensure ts).2.store.Sound [] ∧ c.Grows (c.ensure ts).2 := by
  cases hensure : c.ensure ts with
  | mk answer c' =>
    cases answer with
    | error e =>
      obtain ⟨h', hs', hgrows, -⟩ := ensure_error h hs hensure
      exact ⟨h', hs', hgrows⟩
    | ok a =>
      obtain ⟨h', hs', hgrows, -⟩ := ensure_ok h hs hensure
      exact ⟨h', hs', hgrows⟩

/-- What a request for an archetype may do: it is refused, it finds the archetype, or it
makes the archetype with a partition of its own. -/
inductive Answered (c : Catalog T V) : Except StoreError (Archetype T) → Catalog T V → Prop where
  | refused {e : StoreError} {c' : Catalog T V} (adds : c.AddsNodes c') :
      Answered c (.error e) c'
  | known {a : Archetype T} {c' : Catalog T V} (adds : c.AddsNodes c')
      (there : c.archetype? a.key = some a) : Answered c (.ok a) c'
  | made {a : Archetype T} {c' : Catalog T V} (missing : c.archetype? a.key = none)
      (others : ∀ key, key ≠ a.key → c'.archetype? key = c.archetype? key)
      (partition : c.store.newPartition a.types = (.ok a.partition, c'.store)) :
      Answered c (.ok a) c'

theorem ensure_answered (h : c.Wf) (ts : List T) :
    c.Answered (c.ensure ts).1 (c.ensure ts).2 := by
  unfold ensure
  cases hnode : c.ensureNode ts with
  | mk answer c₁ =>
    have hadds : c.AddsNodes c₁ := by
      have := ensureNode_adds h.registry ts
      rwa [hnode] at this
    cases answer with
    | error e => exact .refused hadds
    | ok key =>
      obtain ⟨h₁, -, -, n, hn, -⟩ := ensureNode_ok h hnode
      have hsame := hadds.archetype? h.nodes.keys_nodup h₁.nodes.keys_nodup
      rcases c₁.materialize_cases key with ⟨hnone, -⟩ | ⟨a, ha, hcase⟩ | ⟨_, _, -, -, -, hcase⟩ |
        ⟨n', partition, store, -, hnone, hnew, hcase⟩
      · rw [hn] at hnone
        cases hnone
      all_goals dsimp only; rw [hcase]
      · obtain ⟨-, rfl, -⟩ := h₁.archetype_wf ha
        exact .known hadds ((hsame a.key).symm.trans ha)
      · exact .refused hadds
      · refine .made ((hsame key).symm.trans hnone) (fun key' hne => ?_) ?_
        · exact (archetype?_give_other c₁ store key partition hne).trans (hsame key')
        · have hstore := store_give c₁ store key partition
          rw [← hadds.store]
          exact hnew.trans (congrArg (Prod.mk (Except.ok partition)) hstore.symm)

theorem ensure_refused (h : c.Wf) {ts : List T} {e : StoreError}
    (hensure : c.ensure ts = (.error e, c')) : c.AddsNodes c' := by
  have hanswered := ensure_answered h ts
  rw [hensure] at hanswered
  cases hanswered with
  | refused adds => exact adds

/-- An archetype after a request was there before, or it is the answer, and its partition
was made for it. -/
theorem archetype_of_ensure (h : c.Wf) (hs : c.store.Sound []) {ts : List T} {key : UInt64}
    {a : Archetype T} (ha : (c.ensure ts).2.archetype? key = some a) :
    c.archetype? key = some a ∨ (c.ensure ts).1 = .ok a ∧
      c.store.newPartition a.types = (.ok a.partition, (c.ensure ts).2.store) := by
  have hanswered := ensure_answered h ts
  obtain ⟨h', -⟩ := ensure_sound h hs ts
  cases hensure : c.ensure ts with
  | mk answer c' =>
    rw [hensure] at ha hanswered h'
    cases hanswered with
    | refused adds =>
      have hsame := adds.archetype? h.nodes.keys_nodup h'.nodes.keys_nodup key
      exact .inl (hsame.symm.trans ha)
    | known adds _ =>
      have hsame := adds.archetype? h.nodes.keys_nodup h'.nodes.keys_nodup key
      exact .inl (hsame.symm.trans ha)
    | @made a' _ missing others partition =>
      by_cases hkey : key = a'.key
      · obtain ⟨-, -, -, ha', -⟩ := ensure_ok h hs hensure
        rw [hkey, ha'] at ha
        cases ha
        exact .inr ⟨rfl, partition⟩
      · exact .inl ((others key hkey).symm.trans ha)

/-! ### One archetype for each set -/

omit [DecidableEq T] in
/-- A node without types is the root. -/
theorem Wf.eq_rootKey (h : c.Wf) {key : UInt64} {n : SetNode T} (hn : c.node? key = some n)
    (hempty : Archetype.layoutOf n.types = []) : key = rootKey := by
  apply Decidable.byContradiction
  intro hne
  rw [node?, if_neg hne, h.nodes.get?_eq_some_iff] at hn
  have hnode := h.nodes.nodes n hn.1
  have hperm := Archetype.layoutOf_perm hnode.types
  rw [hempty, List.nil_perm, List.map_eq_nil_iff] at hperm
  apply hnode.nonempty
  rw [← hnode.types.keys_toList, hperm]
  rfl

/-- The node of a set is found by any listing of its types. -/
theorem ensureNode_known (h : c.Wf) {key : UInt64} {n : SetNode T} (hn : c.node? key = some n)
    {ts : List T} (hperm : (Archetype.layoutOf n.types).Perm ts) :
    c.ensureNode ts = (.ok key, c) := by
  obtain ⟨hwf, hidx⟩ := h.node_types hn
  cases ts with
  | nil =>
    rw [h.eq_rootKey hn hperm.eq_nil]
    rfl
  | cons t rest =>
    have hlists := Archetype.lists_layoutOf hwf hidx
    have hnodup : (Archetype.layoutOf n.types).Nodup :=
      (h.registry.nodup_iff hlists).mp (hwf.sortedKeys_spec.2.imp Nat.ne_of_lt)
    have hroot : key ≠ rootKey := by
      rintro rfl
      rw [node?, if_pos rfl] at hn
      cases hn
      rw [h.root_types] at hperm
      have hnone := Archetype.layoutOf_perm (DenseMap.withCapacity_wf (V := T) 0)
      exact absurd (hnone.symm.trans hperm).nil_eq.symm (List.cons_ne_nil t rest)
    rw [node?, if_neg hroot] at hn
    obtain ⟨hmem, rfl⟩ := h.nodes.get?_eq_some_iff.mp hn
    -- All types are registered, so the key is found without registering any.
    have hregistered : ∀ t' ∈ t :: rest, ∃ index, c.registry.type? index = some t' := by
      intro t' ht'
      obtain ⟨index, -, htype⟩ := hlists.index_of_mem (hperm.mem_iff.mpr ht')
      exact ⟨index, htype⟩
    obtain ⟨indices, hindices⟩ := TypeRegistry.lists_of_registered hregistered
    obtain ⟨key, types, hkey⟩ := TypeRegistry.keyOf_known h.registry hindices
      (hperm.nodup hnodup) (List.cons_ne_nil t rest)
    obtain ⟨-, -, hwf', hidx', hmap, rfl⟩ :=
      TypeRegistry.keyOf_ok h.registry (List.cons_ne_nil t rest) hkey
    have hkeys : n.types.keys.toList.Perm types.keys.toList := by
      have hall := (Archetype.layoutOf_perm hwf).symm
      refine TypeRegistry.Lists.perm h.registry (TypeRegistry.lists_keys hwf hidx)
        (TypeRegistry.lists_keys hwf' hidx') ?_ (hall.symm.nodup hnodup)
      rw [hmap]
      exact hall.trans hperm
    have hsame : n.key = keyFor types := by
      rw [(h.nodes.nodes n hmem).key, keyFor_congr hwf hwf' hkeys]
    have hhas : c.nodes.has (keyFor types) types = .ok true := by
      rw [NodeTable.has, ← hsame, hn]
      simp [SetNode.hasTypes_of_perm hwf hkeys]
    rw [hsame]
    simp only [ensureNode, hkey]
    split
    · simp [NodeTable.ensure, hhas]
    · simp [ensureMulti, hhas]

/-- The archetype of a set is found by any listing of its types, and nothing changes. -/
theorem ensure_known (h : c.Wf) {a : Archetype T} (ha : c.archetype? a.key = some a)
    {ts : List T} (hperm : a.types.Perm ts) : c.ensure ts = (.ok a, c) := by
  obtain ⟨n, hn, heq, -⟩ := h.archetypes a.key a ha
  have htypes : a.types = Archetype.layoutOf n.types := congrArg Archetype.types heq
  have harch : n.archetype = some a := by
    rw [archetype?, hn, Option.bind_some] at ha
    exact ha
  simp only [ensure, ensureNode_known h hn (htypes ▸ hperm), materialize, hn, harch]

/-- Two archetypes differ in their sets. -/
theorem archetype_unique (h : c.Wf) {a a' : Archetype T} (ha : c.archetype? a.key = some a)
    (ha' : c.archetype? a'.key = some a') (hperm : a.types.Perm a'.types) : a = a' := by
  have hfirst := ensure_known h ha (List.Perm.refl _)
  rw [ensure_known h ha' hperm.symm] at hfirst
  cases hfirst
  rfl

/-- A list with a repeated type is refused. -/
theorem ensure_of_repeated (h : c.Wf) (hs : c.store.Sound []) {ts : List T}
    (hrepeated : ¬ ts.Nodup) : ∃ e, (c.ensure ts).1 = .error e := by
  cases hensure : c.ensure ts with
  | mk answer c' =>
    cases answer with
    | error e => exact ⟨e, rfl⟩
    | ok a =>
      obtain ⟨h', -, -, ha, hperm⟩ := ensure_ok h hs hensure
      exact absurd (hperm.nodup ((h'.archetype_wf ha).1.types_nodup h'.registry)) hrepeated

end Catalog

end ArchetypeStore

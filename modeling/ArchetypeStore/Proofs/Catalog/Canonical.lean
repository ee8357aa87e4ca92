import ArchetypeStore.Proofs.Catalog.Evolved

/-! # Keys are canonical

  The key of a larger set is computed twice in different ways: from the types listed, whose
  indices are looked up and sorted, and from the map of a node, whose keys are sorted. Both
  ways give the hash of the same ascending indices, so the order in which types are listed
  does not matter, and neither does the order in which a node came to know them.

  Keys of different sets may still be equal. A request notices this, since a node knows its
  types, and is then refused without leaving a trace among the nodes.
-/

namespace ArchetypeStore

variable {T V : Type}

/-! ### Two ways to the hash -/

/-- The highest bit, which the keys of larger sets have. -/
def multiFlag : UInt64 := (1 : UInt64) <<< 63

theorem multiKey_eq_or (hash : UInt64) : multiKey hash = hash ||| multiFlag := by
  rw [← UInt64.toNat_inj, toNat_multiKey, UInt64.toNat_or]
  have hflag : multiFlag.toNat = 2 ^ 63 := by decide
  have hlt : hash.toNat < 2 ^ 64 := hash.toNat_lt
  have hmod : hash.toNat % 2 ^ 63 < 2 ^ 63 := Nat.mod_lt _ (Nat.two_pow_pos 63)
  have hsum : 2 ^ 63 + hash.toNat % 2 ^ 63 = 2 ^ 63 ||| hash.toNat % 2 ^ 63 := by
    simpa using Nat.two_pow_add_eq_or_of_lt hmod 1
  rw [hflag, Nat.one_shiftLeft, hsum]
  apply Nat.eq_of_testBit_eq
  intro i
  simp only [Nat.testBit_or, Nat.testBit_mod_two_pow, Nat.testBit_two_pow]
  -- Above the highest bit both are without bits.
  by_cases hi : i < 63
  · simp [hi, show ¬ 63 = i by omega]
  · by_cases heq : 63 = i
    · simp [heq]
    · have : hash.toNat.testBit i = false :=
        Nat.testBit_lt_two_pow
          (Nat.lt_of_lt_of_le hlt (Nat.pow_le_pow_right (by decide) (by omega)))
      simp [hi, heq, this]

namespace TypeRegistry

variable [ComponentType T] {ix ix' : TypeRegistry T}

/-- Maps have the same indices when they have the same types. -/
theorem keys_perm_iff (h : ix.Wf) {types types' : DenseMap T} (hwf : types.Wf)
    (hidx : Archetype.Indexes ix types) (hwf' : types'.Wf) (hidx' : Archetype.Indexes ix types') :
    types.keys.toList.Perm types'.keys.toList ↔
      types.values.toList.Perm types'.values.toList := by
  have hl := lists_keys hwf hidx
  have hl' := lists_keys hwf' hidx'
  rw [hwf.values_toList] at hl
  rw [hwf'.values_toList] at hl'
  constructor
  · intro hperm
    have hlayout := Archetype.layoutOf_perm hwf
    rw [Catalog.layoutOf_congr hwf hidx hwf' hidx' hperm, hwf.values_toList] at hlayout
    have hlayout' := Archetype.layoutOf_perm hwf'
    rw [hwf'.values_toList] at hlayout'
    exact hlayout.symm.trans hlayout'
  · intro hperm
    exact hl.perm h hl' hperm ((h.nodup_iff hl).mp hwf.keys_nodup)

variable [DecidableEq T]

/-- The types of a map have the hash of its keys, in whatever order they are listed. -/
theorem hashOf_of_indexed (h : ix.Wf) {types : DenseMap T} (hwf : types.Wf)
    (hidx : Archetype.Indexes ix types) {ts : List T} (hperm : ts.Perm types.values.toList) :
    ix.hashOf ts = (.ok types.keysHash, ix) := by
  have hl := lists_keys hwf hidx
  rw [hwf.values_toList] at hl
  have hnodup : ts.Nodup := hperm.nodup_iff.mpr ((h.nodup_iff hl).mp hwf.keys_nodup)
  obtain ⟨indices, hl'⟩ : ∃ indices, ix.Lists indices ts := lists_of_registered fun t ht => by
    obtain ⟨index, -, hindex⟩ := hl.index_of_mem (hperm.mem_iff.mp ht)
    exact ⟨index, hindex⟩
  obtain ⟨hash, hhash⟩ := hashOf_known h hl' hnodup
  obtain ⟨-, -, indices', sorted, hl'', -, hsorted, hascending, rfl⟩ := hashOf_ok h hhash
  -- Both lists are the indices of the types in ascending order.
  obtain ⟨hkeys, hascending'⟩ := hwf.sortedKeys_spec
  have hsame : sorted = types.sortedKeys := by
    apply DenseSet.eq_of_ascending hascending hascending'
    intro index
    exact ((hsorted.trans (hl''.perm h hl hperm hnodup)).trans hkeys.symm).mem_iff
  rw [hhash, hsame, DenseMap.keysHash]

/-- Different types that were registered have a hash and, being several, a key made of it. -/
theorem keyOf_of_registerAll (h : ix.Wf) {ts : List T} (hseveral : 2 ≤ ts.length)
    (hnodup : ts.Nodup) {indices : List Nat} (hall : ix.registerAll ts = (.ok indices, ix')) :
    ∃ hash types, ix.hashOf ts = (.ok hash, ix') ∧
      ix.keyOf ts = (.ok (multiKey hash, types), ix') := by
  obtain ⟨h', -, hl⟩ := registerAll_ok h hall
  obtain ⟨hash, hhash⟩ : ∃ hash, ix.hashOf ts = (.ok hash, ix') := by
    have hbound : ∀ index ∈ indices, index < ix'.size + 1 := by
      intro index hindex
      obtain ⟨t, -, ht⟩ := hl.type_of_mem hindex
      exact Nat.lt_succ_of_le (type?_le ht).2
    obtain ⟨sorted, hsort⟩ := CountingSort.sort_of_nodup ((h'.nodup_iff hl).mpr hnodup) hbound
    exact ⟨setHash sorted, by simp [hashOf, hall, hsort]⟩
  have hwf := DenseMap.withCapacity_wf (V := T) (ix.size + 1)
  obtain ⟨types, hcollect⟩ := collect_known h' hwf (Archetype.indexes_withCapacity _ _) hl
    ((h'.nodup_iff hl).mpr hnodup) fun index _ => DenseMap.contains_withCapacity ..
  cases ts with
  | nil => exact absurd hseveral (Nat.not_succ_le_zero 1)
  | cons t others =>
    cases others with
    | nil => exact absurd hseveral (Nat.not_succ_le_self 1)
    | cons t' rest => exact ⟨hash, types, hhash, by simp only [keyOf_several, hhash, hcollect]⟩

end TypeRegistry

namespace Catalog

variable [ComponentType T] [DecidableEq T]

/-! ### What is promised -/

/-- The key of each node tells its set, as far as a key can. -/
structure KeysCanonical (c : Catalog T V) : Prop where
  root : c.root.key = 0 ∧ c.root.types.toList = []
  only_root : ∀ n ∈ c.nodes.nodes, n.key ≠ 0
  nonempty : ∀ n ∈ c.nodes.nodes, n.types.size ≠ 0
  single : ∀ n ∈ c.nodes.nodes, n.types.size = 1 → ∃ index t, n.types.toList = [(index, t)] ∧
    c.registry.index? t = some index ∧ n.key.toNat = index
  /-- The types have the same hash in any order, and it is also that of the map. -/
  several : ∀ n ∈ c.nodes.nodes, 2 ≤ n.types.size → n.key = n.types.keysHash ||| multiFlag ∧
    ∀ ts : List T, ts.Perm n.types.values.toList →
      c.registry.hashOf ts = (.ok n.types.keysHash, c.registry)
  /-- The highest bit tells the kind of the node. -/
  kinds : ∀ n ∈ c.nodes.nodes, (2 ≤ n.types.size ↔ multiFlag ≤ n.key)
  distinct : (c.nodes.nodes.map (·.key)).Nodup

/-- The key belongs to a node with another set of types. -/
def TakenBy (c : Catalog T V) (key : UInt64) (ts : List T) : Prop :=
  ∃ n ∈ c.nodes.nodes, n.key = key ∧ ¬ n.types.values.toList.Perm ts

/-- A request for the node of a larger set finds the node or makes it, unless the key is
taken. -/
structure AnswersNode (c : Catalog T V) (ts : List T) (key : UInt64)
    (registry : TypeRegistry T) : Prop where
  refused : (c.ensureNode ts).1 = .error (.archetypeHashCollision key) ↔ c.TakenBy key ts
  /-- A request that is refused leaves all nodes and links as they are. -/
  unchanged : c.TakenBy key ts → (c.ensureNode ts).2 = { c with registry }
  answered : ¬ c.TakenBy key ts → (c.ensureNode ts).1 = .ok key ∧
    ∃ n, (c.ensureNode ts).2.node? key = some n ∧ n.key = key ∧ n.types.values.toList.Perm ts

namespace Keyed

variable {c : Catalog T V} (h : c.Keyed)

include h

theorem single_key {n : SetNode T} (hn : n ∈ c.nodes.nodes) (hone : n.types.size = 1) :
    ∃ index t, n.types.toList = [(index, t)] ∧ c.registry.index? t = some index ∧
      n.key.toNat = index := by
  have hnode := h.nodes.nodes n hn
  obtain ⟨⟨index, t⟩, hlist⟩ := List.length_eq_one_iff.mp (hnode.types.length_toList.trans hone)
  have hkeys : n.types.keys.toList = [index] := by
    rw [← hnode.types.keys_toList, hlist]
    rfl
  have htype := hnode.indexed (index, t) (by rw [hlist]; exact List.mem_singleton.mpr rfl)
  have hbounds := hnode.index_bounds h.registry (hkeys ▸ List.mem_singleton.mpr rfl)
  refine ⟨index, t, hlist, h.registry.index?_eq_some_iff.mpr htype, ?_⟩
  rw [hnode.key, keyFor_of_single hkeys, toNat_indexKey hbounds.2]

omit [DecidableEq T] in
theorem several_key {n : SetNode T} (hn : n ∈ c.nodes.nodes) (hmany : n.types.size ≠ 1) :
    n.key = n.types.keysHash ||| multiFlag := by
  rw [(h.nodes.nodes n hn).key, keyFor_of_size_ne_one hmany, multiKey_eq_or, DenseMap.keysHash]

theorem canonical : c.KeysCanonical where
  root := by
    rw [h.root_key, h.root_types]
    exact ⟨rfl, rfl⟩
  only_root n hn := (h.nodes.nodes n hn).key_ne_rootKey h.registry
  nonempty n hn := (h.nodes.nodes n hn).size_ne_zero
  single n hn hone := h.single_key hn hone
  several n hn hmany := by
    have hnode := h.nodes.nodes n hn
    exact ⟨h.several_key hn (by omega), fun ts hperm =>
      TypeRegistry.hashOf_of_indexed h.registry hnode.types hnode.indexed hperm⟩
  kinds n hn := by
    have hflag : multiFlag.toNat = 1 <<< 63 := by decide
    rw [UInt64.le_iff_toNat_le, hflag]
    by_cases hone : n.types.size = 1
    · obtain ⟨index, t, -, hindex, hkey⟩ := h.single_key hn hone
      have hle := (TypeRegistry.type?_le (h.registry.index?_eq_some_iff.mp hindex)).2
      have hsize := h.registry.size_le
      simp only [TypeRegistry.maxBits] at hsize
      omega
    · have hzero := (h.nodes.nodes n hn).size_ne_zero
      rw [h.several_key hn hone, ← multiKey_eq_or, toNat_multiKey]
      omega
  distinct := h.nodes.keys_nodup

omit [DecidableEq T] in
/-- A set with a key is listed under it or not, seen by types as by indices. -/
theorem taken_iff {registry : TypeRegistry T} (hreg : registry.Wf)
    (hext : c.registry.Extends registry) (key : UInt64) {types : DenseMap T} (hwf : types.Wf)
    (hidx : Archetype.Indexes registry types) :
    c.nodes.Taken key types ↔ c.TakenBy key types.values.toList := by
  unfold NodeTable.Taken TakenBy
  refine exists_congr fun n => and_congr_right fun hn => and_congr_right fun _ => not_congr ?_
  have hnode := (h.nodes.nodes n hn).mono hext
  exact TypeRegistry.keys_perm_iff hreg hnode.types hnode.indexed hwf hidx

/-- A request for a larger set whose types can be registered. -/
theorem answersNode {ts : List T} (hseveral : 2 ≤ ts.length) (hnodup : ts.Nodup)
    {indices : List Nat} {registry : TypeRegistry T}
    (hall : c.registry.registerAll ts = (.ok indices, registry)) :
    ∃ hash, c.registry.hashOf ts = (.ok hash, registry) ∧
      c.AnswersNode ts (hash ||| multiFlag) registry := by
  have hne : ts ≠ [] := by
    rintro rfl
    cases hseveral
  obtain ⟨hash, types, hhash, hkeyOf⟩ :=
    TypeRegistry.keyOf_of_registerAll h.registry hseveral hnodup hall
  obtain ⟨hreg, hext, hwf, hidx, hmap, -⟩ := TypeRegistry.keyOf_ok h.registry hne hkeyOf
  rw [hwf.values_toList] at hmap
  have htaken := h.taken_iff hreg hext (multiKey hash) hwf hidx
  rw [hmap] at htaken
  refine ⟨hash, hhash, ?_⟩
  rw [← multiKey_eq_or]
  rcases h.ensureNode_cases hne hkeyOf with ⟨hyes, hnode⟩ |
    ⟨hno, nodes, hnode, hnodes, n, hn, hkey, hperm⟩
  · have hby := htaken.mp hyes
    refine ⟨⟨fun _ => hby, fun _ => ?_⟩, fun _ => ?_, fun hfree => absurd hby hfree⟩
    · rw [hnode]
    · rw [hnode]
  · have hfree : ¬ c.TakenBy (multiKey hash) ts := fun hby => hno (htaken.mpr hby)
    refine ⟨⟨fun herror => ?_, fun hby => absurd hby hfree⟩, fun hby => absurd hby hfree,
      fun _ => ?_⟩
    · rw [hnode] at herror
      cases herror
    · rw [hnode]
      refine ⟨rfl, n, ?_, hkey, ?_⟩
      · rw [node?, if_neg (multiKey_ne_rootKey hash)]
        exact hnodes.get?_eq_some_iff.mpr ⟨hn, hkey⟩
      · have hwfn := hnodes.nodes n hn
        rw [← hmap]
        exact (TypeRegistry.keys_perm_iff hreg hwfn.types hwfn.indexed hwf hidx).mp hperm

end Keyed

/-- In every catalog keys are canonical, and two sets with one key are never mixed up. -/
theorem Evolved.keys_canonical {settings : Settings} {c : Catalog T V}
    (h : Evolved settings c) : c.KeysCanonical ∧
      ∀ (ts : List T) (indices : List Nat) (registry : TypeRegistry T), 2 ≤ ts.length →
        ts.Nodup → c.registry.registerAll ts = (.ok indices, registry) →
          ∃ hash, c.registry.hashOf ts = (.ok hash, registry) ∧
            c.AnswersNode ts (hash ||| multiFlag) registry :=
  ⟨h.keyed.canonical, fun _ _ _ hseveral hnodup hall =>
    h.keyed.answersNode hseveral hnodup hall⟩

theorem Evolved.keys_canonical_paired : ∃ c : Catalog Sample Nat, Evolved .default (paired c) ∧
    (paired c).KeysCanonical ∧ ∃ hash registry,
      (paired c).registry.hashOf [.position, .velocity] = (.ok hash, registry) ∧
        (paired c).AnswersNode [.position, .velocity] (hash ||| multiFlag) registry := by
  have hmade : ((Catalog.create .default : Except StoreError (Catalog Sample Nat)).map fun c =>
      ((paired c).registry.registerAll [.position, .velocity]).1) = .ok (.ok [2, 1]) := by
    decide +kernel
  cases hcreate : (Catalog.create .default : Except StoreError (Catalog Sample Nat)) with
  | error e =>
    rw [hcreate] at hmade
    cases hmade
  | ok c =>
    rw [hcreate] at hmade
    have hevolved : Evolved .default (paired c) := .link _ _ ((Evolved.create hcreate).ensure _)
    obtain ⟨hcanonical, hanswers⟩ := hevolved.keys_canonical
    obtain ⟨hash, hhash, hanswer⟩ := hanswers [.position, .velocity] [2, 1] _ (by decide)
      (by decide) (Prod.ext (Except.ok.inj hmade) rfl)
    exact ⟨c, hevolved, hcanonical, hash, _, hhash, hanswer⟩

end Catalog

end ArchetypeStore

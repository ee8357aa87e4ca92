import ArchetypeStore.Catalog.Basic
import ArchetypeStore.Proofs.Archetype.Slots

/-! # Keys of component sets

  Collecting the types of a set yields a map with one entry for each type, and the key of
  the set depends on the indices alone. Keys of single types are their indices, which stay
  below `2 ^ 63`; keys of larger sets have the highest bit set.
-/

namespace ArchetypeStore

/-! ### Kinds of keys -/

/-- The key of the set of types in a map. -/
def keyFor {T : Type} (types : DenseMap T) : UInt64 :=
  match types.keys.toList with
  | [index] => UInt64.ofNat index
  | _ => multiKey (setHash types.sortedKeys)

theorem toNat_multiKey (hash : UInt64) :
    (multiKey hash).toNat = (1 <<< 63) + hash.toNat % (1 <<< 63) := by
  have := Nat.mod_lt hash.toNat (show 0 < 1 <<< 63 by decide)
  exact UInt64.toNat_ofNat_of_lt' (by simp only [UInt64.size]; omega)

theorem toNat_indexKey {index : Nat} (h : index ≤ 1 <<< TypeRegistry.maxBits) :
    (UInt64.ofNat index).toNat = index := by
  simp only [TypeRegistry.maxBits] at h
  exact UInt64.toNat_ofNat_of_lt' (by simp only [UInt64.size]; omega)

theorem multiKey_ne_rootKey (hash : UInt64) : multiKey hash ≠ rootKey := by
  intro heq
  have h := congrArg UInt64.toNat heq
  rw [toNat_multiKey] at h
  simp only [rootKey, UInt64.toNat_zero] at h
  omega

theorem multiKey_ne_indexKey (hash : UInt64) {index : Nat}
    (h : index ≤ 1 <<< TypeRegistry.maxBits) : multiKey hash ≠ UInt64.ofNat index := by
  intro heq
  have htoNat := congrArg UInt64.toNat heq
  rw [toNat_multiKey, toNat_indexKey h] at htoNat
  simp only [TypeRegistry.maxBits] at h
  omega

theorem indexKey_ne_rootKey {index : Nat} (hpos : 0 < index)
    (h : index ≤ 1 <<< TypeRegistry.maxBits) : UInt64.ofNat index ≠ rootKey := by
  intro heq
  have htoNat := congrArg UInt64.toNat heq
  rw [toNat_indexKey h] at htoNat
  simp only [rootKey, UInt64.toNat_zero] at htoNat
  omega

theorem indexKey_inj {i j : Nat} (hi : i ≤ 1 <<< TypeRegistry.maxBits)
    (hj : j ≤ 1 <<< TypeRegistry.maxBits) (h : UInt64.ofNat i = UInt64.ofNat j) : i = j := by
  rw [← toNat_indexKey hi, h, toNat_indexKey hj]

theorem keyFor_of_single {T : Type} {types : DenseMap T} {index : Nat}
    (h : types.keys.toList = [index]) : keyFor types = UInt64.ofNat index := by
  rw [keyFor, h]

theorem keyFor_of_size_ne_one {T : Type} {types : DenseMap T} (h : types.size ≠ 1) :
    keyFor types = multiKey (setHash types.sortedKeys) := by
  unfold keyFor
  split
  · rename_i index hkeys
    have hlen := congrArg List.length hkeys
    rw [Array.length_toList] at hlen
    exact absurd hlen h
  · rfl

namespace TypeRegistry

variable {T : Type} [DecidableEq T] [ComponentType T]

/-! ### Collecting -/

/-- The map has the types collected so far, then those of the list. -/
theorem collect_ok {ix ix' : TypeRegistry T} (h : ix.Wf) {types types' : DenseMap T}
    (hwf : types.Wf) (hidx : Archetype.Indexes ix types) {ts : List T}
    (hcollect : ix.collect types ts = (.ok types', ix')) :
    ix'.Wf ∧ ix.Extends ix' ∧ types'.Wf ∧ Archetype.Indexes ix' types' ∧
      types'.toList.map (·.2) = types.toList.map (·.2) ++ ts := by
  induction ts generalizing ix types with
  | nil =>
    cases hcollect
    exact ⟨h, .refl _, hwf, hidx, (List.append_nil _).symm⟩
  | cons t rest ih =>
    unfold collect at hcollect
    split at hcollect
    · cases hcollect
    · rename_i index ix₁ hreg
      obtain ⟨hwf₁, hext₁, htype⟩ := register_ok h hreg
      split at hcollect
      · cases hcollect
      · rename_i types₁ hinsert
        have hnew : types.contains index = false := by
          cases hcontains : types.contains index with
          | false => rfl
          | true =>
            obtain ⟨old, hold⟩ := DenseMap.insert_of_contains hwf hcontains t
            rw [hinsert] at hold
            cases hold
        have hroom := hidx.room hwf h
        obtain ⟨-, hwft, -, hlist⟩ := DenseMap.insert_of_new hwf hnew hroom t
        have hidx₁ := (hidx.mono hext₁).insert hwf hnew hroom htype
        rw [hinsert] at hwft hlist hidx₁
        simp only at hwft hlist hidx₁
        obtain ⟨hwf', hext, hwft', hidx', hmap⟩ := ih hwf₁ hwft hidx₁ hcollect
        refine ⟨hwf', hext₁.trans hext, hwft', hidx', ?_⟩
        rw [hmap, hlist]
        simp

/-- Collecting is refused for a type that is there already, or because the registry cannot
grow. -/
theorem collect_error {ix ix' : TypeRegistry T} (h : ix.Wf) {types : DenseMap T}
    (hwf : types.Wf) (hidx : Archetype.Indexes ix types) {ts : List T} {e : StoreError}
    (hcollect : ix.collect types ts = (.error e, ix')) :
    ix'.Wf ∧ ix.Extends ix' ∧ (e.StopsGrowth ∨
      ∃ t, e = .duplicateComponentType (ComponentType.name t) ∧
        2 ≤ (types.toList.map (·.2) ++ ts).count t) := by
  induction ts generalizing ix types with
  | nil => cases hcollect
  | cons t rest ih =>
    unfold collect at hcollect
    split at hcollect
    · rename_i hreg
      cases hcollect
      obtain ⟨rfl, hstops⟩ := register_error hreg
      exact ⟨h, .refl _, .inl hstops⟩
    · rename_i index ix₁ hreg
      obtain ⟨hwf₁, hext₁, htype⟩ := register_ok h hreg
      cases hcontains : types.contains index with
      | true =>
        obtain ⟨old, hold⟩ := DenseMap.insert_of_contains hwf hcontains t
        split at hcollect
        · cases hcollect
          refine ⟨hwf₁, hext₁, .inr ⟨t, rfl, ?_⟩⟩
          have hmem : t ∈ types.toList.map (·.2) := by
            rw [hwf.contains_iff, ← hwf.keys_toList] at hcontains
            obtain ⟨entry, hentry, rfl⟩ := List.mem_map.mp hcontains
            have := hext₁.type? (hidx entry hentry)
            rw [htype] at this
            cases this
            exact List.mem_map.mpr ⟨entry, hentry, rfl⟩
          have := List.one_le_count_iff.mpr hmem
          rw [List.count_append, List.count_cons_self]
          omega
        · rename_i hinsert
          rw [hinsert] at hold
          cases hold
      | false =>
        have hroom := hidx.room hwf h
        obtain ⟨hnone, hwft, -, hlist⟩ := DenseMap.insert_of_new hwf hcontains hroom t
        have hidx₁ := (hidx.mono hext₁).insert hwf hcontains hroom htype
        split at hcollect
        · rename_i hinsert
          rw [hinsert] at hnone
          cases hnone
        · rename_i types₁ hinsert
          rw [hinsert] at hwft hlist hidx₁
          simp only at hwft hlist hidx₁
          obtain ⟨hwf', hext, hwhy⟩ := ih hwf₁ hwft hidx₁ hcollect
          refine ⟨hwf', hext₁.trans hext, ?_⟩
          rw [hlist] at hwhy
          simpa using hwhy

/-! ### The key of a set -/

omit [DecidableEq T] [ComponentType T] in
/-- The keys of a map stand for its types. -/
theorem lists_keys {ix : TypeRegistry T} {types : DenseMap T} (hwf : types.Wf)
    (hidx : Archetype.Indexes ix types) :
    ix.Lists types.keys.toList (types.toList.map (·.2)) := by
  rw [Lists, ← hwf.keys_toList, List.map_map, List.map_map]
  exact List.map_congr_left fun entry hentry => hidx entry hentry

omit [DecidableEq T] in
/-- A list of types has one list of indices. -/
theorem lists_unique {ix : TypeRegistry T} (h : ix.Wf) {indices indices' : List Nat}
    {ts : List T} (hl : ix.Lists indices ts) (hl' : ix.Lists indices' ts) :
    indices = indices' := by
  apply List.ext_getElem (hl.length.trans hl'.length.symm)
  intro i hi hi'
  obtain ⟨t, ht, htype⟩ := hl.getElem? (List.getElem?_eq_getElem hi)
  obtain ⟨t', ht', htype'⟩ := hl'.getElem? (List.getElem?_eq_getElem hi')
  rw [ht] at ht'
  cases ht'
  exact h.index_inj htype htype'

theorem keyOf_single {ix : TypeRegistry T} (t : T) :
    ix.keyOf [t] = match ix.register t with
      | (.error e, ix') => (.error e, ix')
      | (.ok index, ix') =>
        (.ok (UInt64.ofNat index,
          ((DenseMap.withCapacity (ix.size + 1)).insert index t).2), ix') := rfl

theorem keyOf_several {ix : TypeRegistry T} (t t' : T) (ts : List T) :
    ix.keyOf (t :: t' :: ts) = match ix.hashOf (t :: t' :: ts) with
      | (.error e, ix') => (.error e, ix')
      | (.ok hash, ix') =>
        match ix'.collect (DenseMap.withCapacity (ix.size + 1)) (t :: t' :: ts) with
        | (.error e, ix'') => (.error e, ix'')
        | (.ok types, ix'') => (.ok (multiKey hash, types), ix'') := rfl

/-- The key is that of the collected types, which are the types listed. -/
theorem keyOf_ok {ix ix' : TypeRegistry T} (h : ix.Wf) {ts : List T} (hne : ts ≠ [])
    {key : UInt64} {types : DenseMap T} (hkey : ix.keyOf ts = (.ok (key, types), ix')) :
    ix'.Wf ∧ ix.Extends ix' ∧ types.Wf ∧ Archetype.Indexes ix' types ∧
      types.toList.map (·.2) = ts ∧ key = keyFor types := by
  match ts, hne, hkey with
  | [t], _, hkey =>
    rw [keyOf_single] at hkey
    split at hkey
    · cases hkey
    · rename_i index ix₁ hreg
      cases hkey
      obtain ⟨hwf, hext, htype⟩ := register_ok h hreg
      have hwf₀ := DenseMap.withCapacity_wf (V := T) (ix.size + 1)
      have hnew := DenseMap.contains_withCapacity (V := T) (ix.size + 1) index
      have hroom := DenseMap.room_withCapacity (V := T) (ix.size + 1)
      obtain ⟨-, hwft, hkeys, hlist⟩ := DenseMap.insert_of_new hwf₀ hnew hroom t
      have hidx :=
        (Archetype.indexes_withCapacity ix' (ix.size + 1)).insert hwf₀ hnew hroom htype
      refine ⟨hwf, hext, hwft, hidx, ?_, (keyFor_of_single ?_).symm⟩
      · rw [hlist]
        rfl
      · rw [hkeys]
        rfl
  | t :: t' :: rest, _, hkey =>
    rw [keyOf_several] at hkey
    split at hkey
    · cases hkey
    · rename_i hash ix₁ hhash
      obtain ⟨hwf₁, hext₁, indices, sorted, hlists, hnodup, hperm, hascending, rfl⟩ :=
        hashOf_ok h hhash
      split at hkey
      · cases hkey
      · rename_i hcollect
        cases hkey
        obtain ⟨hwf, hext, hwft, hidx, hmap⟩ := collect_ok hwf₁ (DenseMap.withCapacity_wf _)
          (Archetype.indexes_withCapacity ix₁ _) hcollect
        have hmap' : types.toList.map (·.2) = t :: t' :: rest := hmap
        refine ⟨hwf, hext₁.trans hext, hwft, hidx, hmap', ?_⟩
        -- Both lists of indices belong to the same types, so they are sorted alike.
        have hkeys : types.keys.toList = indices := by
          have hl := lists_keys hwft hidx
          rw [hmap'] at hl
          exact lists_unique hwf hl (hlists.mono hext)
        have hsize : types.size ≠ 1 := by
          have hlen := congrArg List.length hmap'
          rw [List.length_map, hwft.length_toList] at hlen
          simp [hlen]
        have hsorted : types.sortedKeys = sorted := by
          obtain ⟨hperm', hascending'⟩ := hwft.sortedKeys_spec
          apply DenseSet.eq_of_ascending hascending' hascending
          intro index
          exact (hperm'.trans (hkeys ▸ hperm.symm)).mem_iff
        rw [keyFor_of_size_ne_one hsize, hsorted]

theorem keyOf_error {ix ix' : TypeRegistry T} (h : ix.Wf) {ts : List T} (hne : ts ≠ [])
    {e : StoreError} (hkey : ix.keyOf ts = (.error e, ix')) :
    ix'.Wf ∧ ix.Extends ix' ∧ RefusesSet ts e := by
  match ts, hne, hkey with
  | [t], _, hkey =>
    rw [keyOf_single] at hkey
    split at hkey
    · rename_i hreg
      cases hkey
      obtain ⟨rfl, hstops⟩ := register_error hreg
      exact ⟨h, .refl _, .inr hstops⟩
    · cases hkey
  | t :: t' :: rest, _, hkey =>
    rw [keyOf_several] at hkey
    split at hkey
    · rename_i hhash
      cases hkey
      exact hashOf_error h hhash
    · rename_i hash ix₁ hhash
      obtain ⟨hwf₁, hext₁, -⟩ := hashOf_ok h hhash
      split at hkey
      · rename_i hcollect
        cases hkey
        obtain ⟨hwf, hext, hwhy⟩ := collect_error hwf₁ (DenseMap.withCapacity_wf _)
          (Archetype.indexes_withCapacity ix₁ _) hcollect
        refine ⟨hwf, hext₁.trans hext, ?_⟩
        rcases hwhy with hstops | ⟨t, rfl, htwice⟩
        · exact .inr hstops
        · exact .inl ⟨t, by simpa using htwice, rfl⟩
      · cases hkey

end TypeRegistry

end ArchetypeStore

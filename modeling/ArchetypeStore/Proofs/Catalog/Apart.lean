import ArchetypeStore.Proofs.Catalog.Evolved
import ArchetypeStore.Proofs.SetHash.Injective
import ArchetypeStore.Proofs.TypeRegistry.Refusals

/-! # Catalogs without collisions

  As long as no more than 33 types are registered, a set of at most 12 types is never refused
  because its key is taken, however many types the other sets have. With a type more there
  may be two sets with one key.
-/

namespace ArchetypeStore

variable {T V : Type}

/-! ### Taken keys

  Nothing but the lookup of a node finds a key to be taken, so all other errors are of
  another kind. -/

/-- The error says that a key is taken. -/
def StoreError.SaysTaken (e : StoreError) : Prop := ∃ key, e = .archetypeHashCollision key

theorem StoreError.OfMemory.not_saysTaken {e : StoreError} (h : e.OfMemory) : ¬ e.SaysTaken := by
  rintro ⟨key, rfl⟩
  rcases h with ⟨bytes, h⟩ | h <;> cases h

theorem StoreError.OfTypes.not_saysTaken {e : StoreError} (h : e.OfTypes) : ¬ e.SaysTaken := by
  rintro ⟨key, rfl⟩
  cases h

/-! ### Keys of nodes -/

namespace SetNode.Wf

variable {registry : TypeRegistry T} {n : SetNode T} (h : n.Wf registry)

include h

theorem key_eq_setKey (hmany : n.types.size ≠ 1) : n.key = setKey n.types.keys.toList.toFinset := by
  obtain ⟨hperm, hascending⟩ := h.types.sortedKeys_spec
  rw [h.key, keyFor_of_size_ne_one hmany, ← List.toFinset_eq_of_perm _ _ hperm,
    setKey_of_ascending hascending]

theorem indices_subset : n.types.keys.toList.toFinset ⊆ Finset.Icc 1 registry.size := by
  intro index hindex
  rw [List.mem_toFinset, ← h.types.keys_toList] at hindex
  obtain ⟨entry, hentry, rfl⟩ := List.mem_map.mp hindex
  exact Finset.mem_Icc.mpr (TypeRegistry.type?_le (h.indexed entry hentry))

theorem card_indices : n.types.keys.toList.toFinset.card = n.types.size := by
  rw [List.toFinset_card_of_nodup h.types.keys_nodup, Array.length_toList]
  rfl

theorem two_le_card (hmany : n.types.size ≠ 1) : 2 ≤ n.types.keys.toList.toFinset.card := by
  have hzero := h.size_ne_zero
  rw [h.card_indices]
  omega

end SetNode.Wf

variable [ComponentType T]

/-- With few registered types the key of a small set is taken by nothing else. -/
theorem NodeTable.Keyed.not_taken {registry : TypeRegistry T} {table : NodeTable T}
    (h : table.Keyed registry) (hreg : registry.Wf) (hfew : registry.size ≤ 33) {key : UInt64}
    {types : DenseMap T} (hnode : (SetNode.create key types).Wf registry)
    (hsmall : types.size ≤ 12) : ¬ table.Taken key types := by
  rcases single_or_several types with ⟨index, hkeys⟩ | hmany
  · exact h.not_taken_of_single hnode hreg hkeys
  · rintro ⟨n, hn, hkey, hother⟩
    have hwf := h.nodes n hn
    have hmany' : n.types.size ≠ 1 := fun hone => hwf.key_ne_multiKey hreg hone _
      (hkey.trans (hnode.key.trans (keyFor_of_size_ne_one hmany)))
    have hrange : Finset.Icc 1 registry.size ⊆ Finset.Icc 1 33 :=
      Finset.Icc_subset_Icc_right hfew
    have hkeys : setKey types.keys.toList.toFinset = setKey n.types.keys.toList.toFinset := by
      rw [← hwf.key_eq_setKey hmany', hkey]
      exact (hnode.key_eq_setKey hmany).symm
    have hsets := setKey_inj (hnode.indices_subset.trans hrange)
      (hwf.indices_subset.trans hrange) (hnode.two_le_card hmany)
      (hnode.card_indices.trans_le hsmall) (hwf.two_le_card hmany') hkeys
    exact hother (List.perm_of_nodup_nodup_toFinset_eq hwf.types.keys_nodup
      hnode.types.keys_nodup hsets.symm)

namespace Catalog

theorem materialize_not_saysTaken {c c' : Catalog T V} {key : UInt64} {e : StoreError}
    (h : c.materialize key = (.error e, c')) : ¬ e.SaysTaken := by
  rcases c.materialize_cases key with ⟨-, hcase⟩ | ⟨_, -, hcase⟩ | ⟨_, _, -, -, hnew, hcase⟩ |
    ⟨_, _, _, -, -, -, hcase⟩
  all_goals
    rw [hcase] at h
    cases h
  · rintro ⟨key, hkey⟩
    cases hkey
  · rcases (RowStore.newPartition_error hnew).2 with ⟨rfl, -⟩ | hchunk
    · rintro ⟨key, hkey⟩
      cases hkey
    · exact (RowStore.allocateChunk_refused hchunk).not_saysTaken

variable [DecidableEq T] {c : Catalog T V}

/-- The node of a small set is not refused because of its key. -/
theorem Keyed.ensureNode_not_saysTaken (h : c.Keyed) {ts : List T} (hsmall : ts.length ≤ 12)
    (hfew : (c.ensureNode ts).2.registry.size ≤ 33) {e : StoreError}
    (herror : (c.ensureNode ts).1 = .error e) : ¬ e.SaysTaken := by
  match ts with
  | [] => cases herror
  | t :: rest =>
    have hne : t :: rest ≠ [] := List.cons_ne_nil t rest
    cases hkey : c.registry.keyOf (t :: rest) with
    | mk answer registry =>
      cases answer with
      | error e' =>
        simp only [Catalog.ensureNode, hkey, Except.error.injEq] at herror
        exact herror ▸ (TypeRegistry.keyOf_refused h.registry hne hkey).not_saysTaken
      | ok answer =>
        obtain ⟨key, types⟩ := answer
        obtain ⟨hreg, hext, -⟩ := TypeRegistry.keyOf_ok h.registry hne hkey
        obtain ⟨hnode, hsize⟩ := Keyed.node_of_keyOf h.registry hne hkey
        rcases h.ensureNode_cases hne hkey with ⟨htaken, hanswer⟩ | ⟨-, nodes, hanswer, -⟩
        · rw [hanswer] at hfew
          exact absurd htaken ((h.nodes.mono hext).not_taken hreg hfew hnode (hsize ▸ hsmall))
        · rw [hanswer] at herror
          cases herror

/-- The archetype of a small set is not refused because of its key either. -/
theorem Keyed.ensure_not_saysTaken (h : c.Keyed) {ts : List T} (hsmall : ts.length ≤ 12)
    (hfew : (c.ensureNode ts).2.registry.size ≤ 33) {e : StoreError}
    (herror : (c.ensure ts).1 = .error e) : ¬ e.SaysTaken := by
  unfold Catalog.ensure at herror
  split at herror
  · rename_i hrefused
    cases herror
    exact h.ensureNode_not_saysTaken hsmall hfew (congrArg Prod.fst hrefused)
  · exact materialize_not_saysTaken (Prod.ext herror rfl)

/-- Keys of 2 to 12 indices are different up to 33 and no further, and the keys of nodes are
such keys. So a catalog with at most 33 types finds the key of a small set free. -/
theorem Evolved.keys_apart {settings : Settings} (h : Evolved settings c) :
    (∀ n, Set.InjOn setKey (indexSets n) ↔ n ≤ 33) ∧
      (∀ n ∈ c.nodes.nodes, 2 ≤ n.types.size →
        n.key = setKey n.types.keys.toList.toFinset) ∧
      ∀ ts : List T, ts.length ≤ 12 → (c.ensureNode ts).2.registry.size ≤ 33 → ∀ key,
        (c.ensureNode ts).1 ≠ .error (.archetypeHashCollision key) ∧
          (c.ensure ts).1 ≠ .error (.archetypeHashCollision key) := by
  refine ⟨fun n => ⟨fun hinj => ?_, injOn_setKey⟩, fun n hn hmany => ?_,
    fun ts hsmall hfew key => ⟨fun herror => ?_, fun herror => ?_⟩⟩
  · exact Nat.le_of_not_lt fun hgreater => not_injOn_setKey hgreater hinj
  · exact (h.keyed.nodes.nodes n hn).key_eq_setKey (by omega)
  · exact h.keyed.ensureNode_not_saysTaken hsmall hfew herror ⟨key, rfl⟩
  · exact h.keyed.ensure_not_saysTaken hsmall hfew herror ⟨key, rfl⟩

theorem Evolved.keys_apart_paired : ∃ c : Catalog Sample Nat, Evolved .default (paired c) ∧
    Set.InjOn setKey (indexSets 33) ∧
    (∃ n ∈ (paired c).nodes.nodes, 2 ≤ n.types.size ∧
      n.key = setKey n.types.keys.toList.toFinset) ∧
    ∀ key, ((paired c).ensureNode [.position, .velocity]).1 ≠
      .error (.archetypeHashCollision key) := by
  have hmade : ((Catalog.create .default : Except StoreError (Catalog Sample Nat)).map fun c =>
      ((paired c).nodes.nodes.any fun n => decide (2 ≤ n.types.size)) &&
        decide (((paired c).ensureNode [.position, .velocity]).2.registry.size ≤ 33)) =
          .ok true := by
    decide +kernel
  cases hcreate : (Catalog.create .default : Except StoreError (Catalog Sample Nat)) with
  | error e =>
    rw [hcreate] at hmade
    cases hmade
  | ok c =>
    rw [hcreate] at hmade
    obtain ⟨hany, hfew⟩ := (Bool.and_eq_true _ _).mp (Except.ok.inj hmade)
    obtain ⟨n, hn, hmany⟩ := List.any_eq_true.mp hany
    have hevolved : Evolved .default (paired c) := .link _ _ ((Evolved.create hcreate).ensure _)
    obtain ⟨hsets, hkeys, hanswers⟩ := hevolved.keys_apart
    exact ⟨c, hevolved, (hsets 33).mpr (Nat.le_refl 33),
      ⟨n, hn, of_decide_eq_true hmany, hkeys n hn (of_decide_eq_true hmany)⟩,
      fun key => (hanswers _ (by decide) (of_decide_eq_true hfew) key).1⟩

end Catalog

end ArchetypeStore

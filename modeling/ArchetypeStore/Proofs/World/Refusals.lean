import ArchetypeStore.Proofs.RowStore.Columns
import ArchetypeStore.Proofs.TypeRegistry.Refusals
import ArchetypeStore.Proofs.World.Shared

/-! # Refused component sets

  A component set is refused because a type is listed twice, because types or sets meet in a
  hash, because the chunk numbers are used up, or because there is no memory for a chunk. All
  but the first are fatal, with one exception: a column whose bytes can be counted in a word but
  are too many for a layout is reported like a setting that was rejected.

  An archetype that is there had all its columns, so it is never refused, however little memory
  is left.
-/

namespace ArchetypeStore

open ComponentType (Aligned LaidOut Unlaid columnError)

variable {T V : Type} [ComponentType T]

/-! ### Nodes -/

namespace Catalog.Keyed

variable [DecidableEq T] {c : Catalog T V} (h : c.Keyed) {ts : List T}

include h

/-- A set is given no node because of a hash, or of a type that is listed twice. -/
theorem ensureNode_refused {e : StoreError} (hrefused : (c.ensureNode ts).1 = .error e) :
    e.isFatal = true ∨
      ∃ t, 2 ≤ ts.count t ∧ e = .duplicateComponentType (ComponentType.name t) := by
  match ts with
  | [] => cases hrefused
  | t :: rest =>
    have hne : t :: rest ≠ [] := List.cons_ne_nil t rest
    cases hkey : c.registry.keyOf (t :: rest) with
    | mk answer registry =>
      cases answer with
      | error e' =>
        simp only [Catalog.ensureNode, hkey, Except.error.injEq] at hrefused
        subst hrefused
        have htypes := TypeRegistry.keyOf_refused h.registry hne hkey
        rcases (TypeRegistry.keyOf_error h.registry hne hkey).2.2 with htwice | hfatal | rfl
        · exact .inr htwice
        · exact .inl hfatal
        · cases htypes
      | ok answer =>
        obtain ⟨key, types⟩ := answer
        rcases h.ensureNode_cases hne hkey with ⟨-, hanswer⟩ | ⟨-, nodes, hanswer, -⟩
        all_goals
          rw [hanswer] at hrefused
          cases hrefused
        exact .inl rfl

/-- The node that a set is given has the types of the set. -/
theorem ensureNode_found {key : UInt64} (hfound : (c.ensureNode ts).1 = .ok key) :
    ∃ n, (c.ensureNode ts).2.node? key = some n ∧ (Archetype.layoutOf n.types).Perm ts := by
  match ts with
  | [] =>
    cases hfound
    refine ⟨c.root, if_pos rfl, ?_⟩
    rw [h.root_types]
    exact Archetype.layoutOf_perm (DenseMap.withCapacity_wf 0)
  | t :: rest =>
    have hne : t :: rest ≠ [] := List.cons_ne_nil t rest
    cases hkey : c.registry.keyOf (t :: rest) with
    | mk answer registry =>
      cases answer with
      | error e' =>
        simp only [Catalog.ensureNode, hkey] at hfound
        cases hfound
      | ok answer =>
        obtain ⟨key', types⟩ := answer
        obtain ⟨hreg, -, hwf, hidx, htypes, -⟩ := TypeRegistry.keyOf_ok h.registry hne hkey
        rcases h.ensureNode_cases hne hkey with
          ⟨-, hanswer⟩ | ⟨-, nodes, hanswer, hnodes, n, hn, hnkey, hperm⟩
        all_goals
          rw [hanswer] at hfound
          cases hfound
        have hnode := hnodes.nodes n hn
        refine ⟨n, ?_, ?_⟩
        · rw [hanswer, node?, if_neg (hnkey ▸ hnode.key_ne_rootKey hreg)]
          exact hnodes.get?_eq_some_iff.mpr ⟨hn, hnkey⟩
        · rw [layoutOf_congr hnode.types hnode.indexed hwf hidx hperm, ← htypes]
          exact Archetype.layoutOf_perm hwf

end Catalog.Keyed

/-! ### Requests for component sets -/

namespace Catalog

variable [DecidableEq T]

/-- How refused requests for component sets are reported. -/
structure Reports (c : Catalog T V) : Prop where
  /-- A request is refused with a fatal error, with the name of a type that is listed twice, or
  because no layout has a column that it needs. -/
  refused : ∀ ts e, (c.ensure ts).1 = .error e → e.isFatal = true ∨
    (∃ t, 2 ≤ ts.count t ∧ e = .duplicateComponentType (ComponentType.name t)) ∨
      e = Layout.invalid ∧ ∃ t ∈ ts, Unlaid t c.store.format.rowsPerChunk
  /-- A set is refused when no layout has one of its columns. -/
  unlaid : ∀ ts, ∀ t ∈ ts, ¬ LaidOut t c.store.format.rowsPerChunk →
    ∃ e, (c.ensure ts).1 = .error e
  /-- A set is refused when there is no memory for one of its columns, unless its archetype is
  there. -/
  denied : ∀ ts, ∀ t ∈ ts, (columnError c.store.memory t c.store.format.rowsPerChunk).isSome →
    (∃ e, (c.ensure ts).1 = .error e) ∨
      ∃ key a, (c.ensureNode ts).1 = .ok key ∧ c.archetype? key = some a
  /-- A set with a node is refused when it has no archetype yet and there are no chunk numbers
  left, or else when a column is refused. The first one in slot order is reported. -/
  reason : ∀ ts key, (c.ensureNode ts).1 = .ok key → ∃ indices layout,
    (c.ensureNode ts).2.registry.Lists indices layout ∧ indices.Pairwise (· < ·) ∧
      layout.Perm ts ∧ ∀ e, (c.ensure ts).1 = .error e ↔
        c.archetype? key = none ∧ c.store.partitionError layout = some e

end Catalog

namespace World

variable {reserved : List SlotId} {w : World T V} {a : Archetype T}

/-- Each column of an archetype that is there has a layout. -/
theorem Regular.laidOut (h : w.Regular reserved) (ha : w.Houses a) {t : T} (ht : t ∈ a.types) :
    LaidOut t w.store.format.rowsPerChunk :=
  h.store.backed a.partition a.types ha.layout t ht

/-- The archetype of a node is refused when it is new and its partition cannot be made. -/
theorem Regular.materialize_error_iff (h : w.Regular reserved) (haligned : Aligned T)
    {key : UInt64} {n : SetNode T} (hn : w.catalog.node? key = some n) {e : StoreError} :
    (w.catalog.materialize key).1 = .error e ↔ w.catalog.archetype? key = none ∧
      w.store.partitionError (Archetype.layoutOf n.types) = some e := by
  have hanswer := RowStore.newPartition_answer haligned h.store.valid (Archetype.layoutOf n.types)
  rcases w.catalog.materialize_cases key with ⟨hnone, -⟩ | ⟨a, ha, hmat⟩ |
    ⟨n', e', hn', hnone, hnew, hmat⟩ | ⟨n', partition, store, hn', hnone, hnew, hmat⟩
  · rw [hn] at hnone
    cases hnone
  · rw [hmat, ha]
    simp
  · obtain rfl : n' = n := Option.some.inj (hn'.symm.trans hn)
    rw [show w.store.newPartition _ = _ from hnew] at hanswer
    split at hanswer
    · rename_i hwhy
      cases hanswer
      rw [hmat, hnone, hwhy]
      exact ⟨fun heq => ⟨rfl, congrArg some (Except.error.inj heq)⟩,
        fun heq => congrArg Except.error (Option.some.inj heq.2)⟩
    · cases hanswer
  · obtain rfl : n' = n := Option.some.inj (hn'.symm.trans hn)
    rw [show w.store.newPartition _ = _ from hnew] at hanswer
    split at hanswer
    · cases hanswer
    · rename_i hwhy
      rw [hmat, hwhy]
      simp

section requests

variable [DecidableEq T] {ts : List T}

theorem Regular.archetype?_ensureNode (h : w.Regular reserved) (ts : List T) (key : UInt64) :
    (w.catalog.ensureNode ts).2.archetype? key = w.catalog.archetype? key :=
  (Catalog.ensureNode_adds h.catalog.registry ts).archetype? h.catalog.nodes.keys_nodup
    (h.catalog.ensureNode ts).nodes.keys_nodup key

/-- A set that is given a node is refused when it has no archetype and its partition cannot be
made. -/
theorem Regular.ensure_error_iff (h : w.Regular reserved) (haligned : Aligned T) {key : UInt64}
    {c : Catalog T V} (hnode : w.catalog.ensureNode ts = (.ok key, c)) {n : SetNode T}
    (hn : c.node? key = some n) {e : StoreError} :
    (w.catalog.ensure ts).1 = .error e ↔ w.catalog.archetype? key = none ∧
      w.store.partitionError (Archetype.layoutOf n.types) = some e := by
  have hregular : Regular { w with catalog := (w.catalog.ensureNode ts).2 } reserved :=
    (ensureNode_upholds w ts h).founded
  have hstore := (Catalog.ensureNode_adds h.catalog.registry ts).store
  have harchetype := h.archetype?_ensureNode ts key
  rw [hnode] at hregular hstore harchetype
  have hmat := hregular.materialize_error_iff haligned hn (e := e)
  rw [show World.store { w with catalog := c } = w.store from hstore] at hmat
  rw [Catalog.ensure, hnode, ← harchetype]
  exact hmat

/-- A set that has no archetype yet is refused when there is no memory for one of its columns. -/
theorem Regular.denied (h : w.Regular reserved) (haligned : Aligned T) {t : T} (ht : t ∈ ts)
    (hcolumn : (columnError w.store.memory t w.store.format.rowsPerChunk).isSome) :
    (∃ e, (w.catalog.ensure ts).1 = .error e) ∨
      ∃ key a, (w.catalog.ensureNode ts).1 = .ok key ∧ w.catalog.archetype? key = some a := by
  cases hnode : w.catalog.ensureNode ts with
  | mk answer c =>
    cases answer with
    | error e => exact .inl ⟨e, by rw [Catalog.ensure, hnode]⟩
    | ok key =>
      obtain ⟨n, hn, hperm⟩ := h.catalog.ensureNode_found (congrArg Prod.fst hnode)
      cases ha : w.catalog.archetype? key with
      | some a => exact .inr ⟨key, a, rfl, ha⟩
      | none =>
        have hsome := RowStore.isSome_chunkError (hperm.symm.subset ht) hcolumn
        obtain ⟨e, he⟩ := Option.isSome_iff_exists.mp (RowStore.isSome_partitionError hsome)
        rw [hnode] at hn
        exact .inl ⟨e, (h.ensure_error_iff haligned hnode hn).mpr ⟨ha, he⟩⟩

/-- Requests for component sets are refused for the reasons above. -/
theorem Regular.reports (h : w.Regular reserved) (haligned : Aligned T) : w.catalog.Reports where
  refused ts e herror := by
    cases hnode : w.catalog.ensureNode ts with
    | mk answer c =>
      cases answer with
      | error e' =>
        rw [Catalog.ensure, hnode] at herror
        cases herror
        rcases h.catalog.ensureNode_refused (congrArg Prod.fst hnode) with hfatal | htwice
        · exact .inl hfatal
        · exact .inr (.inl htwice)
      | ok key =>
        obtain ⟨n, hn, hperm⟩ := h.catalog.ensureNode_found (congrArg Prod.fst hnode)
        rw [hnode] at hn
        obtain ⟨-, hwhy⟩ := (h.ensure_error_iff haligned hnode hn).mp herror
        rcases RowStore.partitionError_cases hwhy with hfatal | ⟨hinvalid, t, ht, hunlaid⟩
        · exact .inl hfatal
        · exact .inr (.inr ⟨hinvalid, t, hperm.subset ht, hunlaid⟩)
  unlaid ts t ht hunlaid := by
    have hcolumn := ComponentType.isSome_columnError_of_not_laidOut haligned w.store.memory hunlaid
    rcases h.denied haligned ht hcolumn with hrefused | ⟨key, a, hnode, ha⟩
    · exact hrefused
    · -- An archetype that is there would have the column.
      obtain ⟨n, hn, hperm⟩ := h.catalog.ensureNode_found hnode
      have htypes := (h.catalog.ensureNode ts).archetype_types hn
        ((h.archetype?_ensureNode ts key).trans ha)
      exact absurd (h.laidOut (h.houses ha) (htypes ▸ hperm.symm.subset ht)) hunlaid
  denied ts t ht hcolumn := h.denied haligned ht hcolumn
  reason ts key hfound := by
    obtain ⟨n, hn, hperm⟩ := h.catalog.ensureNode_found hfound
    have hnode : w.catalog.ensureNode ts = (.ok key, (w.catalog.ensureNode ts).2) :=
      Prod.ext hfound rfl
    obtain ⟨hwf, hidx, -⟩ := (h.catalog.ensureNode ts).node_types hn
    exact ⟨n.types.sortedKeys, Archetype.layoutOf n.types, Archetype.lists_layoutOf hwf hidx,
      hwf.sortedKeys_spec.2, hperm, fun e => h.ensure_error_iff haligned hnode hn⟩

end requests

end World

end ArchetypeStore

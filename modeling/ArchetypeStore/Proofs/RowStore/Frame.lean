import ArchetypeStore.Proofs.RowStore.Alike

/-! # What a removal leaves alone

  A removal at an id that names no item is refused before the caller's check is asked, and so
  is one for whose slot the free stack can have no room. One that the check refuses can be seen
  by nobody. One that goes through empties a slot of one
  chunk; at most one other item moves, from the end of that chunk into the gap, and every
  other item stays where it is, with its id and its values.
-/

namespace ArchetypeStore

namespace RowStore

variable {T V : Type} {s s' : RowStore T V} {reserved : List SlotId} {partition : Nat}

/-! ### Counting items -/

/-- The rows of a chunk, read one by one. -/
theorem rows_toList (s : RowStore T V) (chunk : Nat) :
    (s.rows chunk).toList = (List.range (s.fill chunk)).map (s.cell? chunk) := by
  apply List.ext_getElem?
  intro i
  rw [Array.getElem?_toList, List.getElem?_map]
  by_cases hi : i < s.fill chunk
  · have hsize : i < (s.rows chunk).size := by rwa [← fill_eq]
    rw [List.getElem?_range hi, Option.map_some, cell?_eq, Array.getElem?_eq_getElem hsize]
    rfl
  · have hsize : (s.rows chunk).size ≤ i := by rw [← fill_eq]; omega
    rw [Array.getElem?_eq_none hsize, List.getElem?_eq_none (by simpa using hi)]
    rfl

/-- The number of published rows of a chunk. -/
def publishedCount (s : RowStore T V) (chunk : Nat) : Nat :=
  (s.rows chunk).toList.countP Option.isSome

theorem length_publishedFrom (start : Nat) (rows : List (Option (Cell V))) :
    (Chunk.publishedFrom start rows).length = rows.countP Option.isSome := by
  induction rows generalizing start with
  | nil => rfl
  | cons row rest ih =>
    cases row with
    | none => simp [Chunk.publishedFrom, ih]
    | some cell => simp [Chunk.publishedFrom, ih]

/-- The published rows of a chunk, as a walk comes by them. -/
def walkChunk (s : RowStore T V) (chunk : Nat) : List (RowView V) :=
  (Chunk.publishedFrom 0 (s.rows chunk).toList).map fun (row, cell) =>
    ⟨s.format.slotId chunk row, chunk, row, some cell⟩

theorem walk_eq (s : RowStore T V) (q : Nat) : s.walk q = (s.chain q).flatMap s.walkChunk := by
  unfold walk walkChunk rows
  congr 1
  funext chunk
  cases s.chunks[chunk]? <;> rfl

theorem length_walkChunk (s : RowStore T V) (chunk : Nat) :
    (s.walkChunk chunk).length = s.publishedCount chunk := by
  rw [walkChunk, List.length_map, length_publishedFrom, publishedCount]

/-- Chunks with the same rows are walked through alike. -/
theorem flatMap_walkChunk (hformat : s'.format = s.format) {chunks : List Nat}
    (hrows : ∀ c ∈ chunks, s'.rows c = s.rows c) :
    chunks.flatMap s'.walkChunk = chunks.flatMap s.walkChunk := by
  rw [List.flatMap_def, List.flatMap_def]
  congr 1
  refine List.map_congr_left fun c hc => ?_
  rw [walkChunk, walkChunk, hformat, hrows c hc]

/-- Rows that were not claimed hold nothing, so it does not matter how many are counted. -/
theorem publishedCount_eq {chunk n : Nat} (hn : s.fill chunk ≤ n) :
    s.publishedCount chunk = (List.range n).countP fun row => (s.cell? chunk row).isSome := by
  rw [publishedCount, rows_toList, List.countP_map]
  induction hn with
  | refl => rfl
  | @step n hle ih =>
    have hnone : s.cell? chunk n = none := cell?_of_fill_le hle
    rw [ih, List.range_succ, List.countP_append]
    simp [hnone]

/-- Of the rows that satisfy a property, one is taken out. -/
theorem countP_range_erase {n given : Nat} {p p' : Nat → Bool} (hlt : given < n)
    (hgiven : p given = true) (hp' : ∀ r, p' r = (p r && r != given)) :
    (List.range n).countP p' + 1 = (List.range n).countP p := by
  have hmem : given ∈ (List.range n).filter p :=
    List.mem_filter.mpr ⟨List.mem_range.mpr hlt, hgiven⟩
  have hnodup : ((List.range n).filter p).Nodup := List.nodup_range.filter p
  have herase : (List.range n).filter p' = ((List.range n).filter p).erase given := by
    rw [List.Nodup.erase_eq_filter hnodup, List.filter_filter]
    refine List.filter_congr fun r _ => ?_
    rw [hp', Bool.and_comm]
  rw [List.countP_eq_length_filter, List.countP_eq_length_filter, herase,
    List.length_erase_of_mem hmem]
  exact Nat.sub_add_cancel (List.length_pos_of_mem hmem)

namespace Vacated

variable {chunk row given : Nat} (h : Vacated s s' chunk row given) {cell : Cell V}
  (hcell : s.cell? chunk row = some cell)

include h hcell

/-- The slot that is given up held an item, the one that is removed or the one that moves. -/
theorem given_published : (s.cell? chunk given).isSome := by
  rcases h.ids with ⟨rfl, -⟩ | ⟨-, moved, hmoved, -⟩
  · rw [hcell]
    rfl
  · rw [hmoved]
    rfl

/-- Just the slot that is given up is published no longer. -/
theorem isSome_iff (c r : Nat) :
    (s'.cell? c r).isSome = ((s.cell? c r).isSome && !(c == chunk && r == given)) := by
  rw [h.cell]
  by_cases hgiven : c = chunk ∧ r = given
  · simp [hgiven]
  · rw [if_neg hgiven]
    by_cases hrow : c = chunk ∧ r = row
    · have hpublished := h.given_published hcell
      rw [if_pos hrow, hpublished, hrow.1, hrow.2, hcell]
      rw [hrow.1, hrow.2] at hgiven
      simpa using hgiven
    · rw [if_neg hrow]
      have hother : (c == chunk && r == given) = false := by
        rwa [← Bool.not_eq_true, Bool.and_eq_true, beq_iff_eq, beq_iff_eq]
      rw [hother, Bool.not_false, Bool.and_true]

theorem publishedCount_self (hs : Chained s) (hs' : Chained s') :
    s'.publishedCount chunk + 1 = s.publishedCount chunk := by
  have hformat := h.same.format
  have hle' := hs'.fill_le chunk
  rw [hformat] at hle'
  rw [publishedCount_eq hle', publishedCount_eq (hs.fill_le chunk)]
  refine countP_range_erase (hs.lt_rowsPerChunk h.given_lt) (h.given_published hcell) fun r => ?_
  rw [h.isSome_iff hcell, beq_self_eq_true, Bool.true_and]
  rfl

omit hcell in
/-- The rows of other chunks are as they were. -/
theorem rows_other {c : Nat} (hc : c ≠ chunk)
    (hfill : s'.fill c = s.fill c) : s'.rows c = s.rows c := by
  apply Array.toList_inj.mp
  rw [rows_toList, rows_toList, hfill]
  refine List.map_congr_left fun r _ => ?_
  rw [h.cell, if_neg fun heq => hc heq.1, if_neg fun heq => hc heq.1]

end Vacated

/-! ### What a removal changes -/

/-- The slot of a row in the chain of a partition, as an id names it whose flags are not
looked at. -/
structure Names (s : RowStore T V) (partition : Nat) (id : SlotId) (chunk row : Nat) : Prop where
  mem_chain : chunk ∈ s.chain partition
  place : id.place = s.format.slotId chunk row

/-- What is seen after the item in a row was removed and the slot of row `given` of the same
chunk was given up. -/
structure Removed (s s' : RowStore T V) (partition chunk row given : Nat) : Prop where
  same : SameChains s s'
  /-- The slot that is given up is the last claimed one, unless that one is empty and another. -/
  given_eq : given = if s.LeavesHole chunk row then row else s.fill chunk - 1
  given_empty : s'.cell? chunk given = none
  /-- A published item at the end of the chunk moves into the gap, and its id follows it. -/
  moved : ∀ moved, row ≠ s.fill chunk - 1 → s.cell? chunk (s.fill chunk - 1) = some moved →
    s'.cell? chunk row = some moved ∧
      s'.ids = s.ids.setIfInBounds moved.item
        (SlotId.relocate (s.idOf moved.item) (s.format.slotId chunk row)) ∧
      (moved.item < s.ids.size →
        (s'.idOf moved.item).place = s.format.slotId chunk row ∧
          (s'.idOf moved.item).flags = (s.idOf moved.item).flags)
  /-- Otherwise the gap stays empty and no item has a new id. -/
  still : (row = s.fill chunk - 1 ∨ s.cell? chunk (s.fill chunk - 1) = none) →
    s'.cell? chunk row = none ∧ s'.ids = s.ids
  /-- No other row of any chunk changes. -/
  others : ∀ c r, ¬ (c = chunk ∧ (r = row ∨ r = s.fill chunk - 1)) → s'.cell? c r = s.cell? c r
  /-- No other item has a new id. -/
  ids : ∀ item, (∀ moved, s.cell? chunk (s.fill chunk - 1) = some moved → item ≠ moved.item) →
    s'.idOf item = s.idOf item
  /-- One item less is walked over, and none in the other partitions. -/
  walk : (s'.walk partition).length + 1 = (s.walk partition).length
  other_walk : ∀ q, q ≠ partition → s'.walk q = s.walk q

section

variable {chunk row given : Nat} (hvacated : Vacated s s' chunk row given)
  (hgave : GaveUp s s' partition chunk row given)

include hgave

theorem GaveUp.given_cases : given = row ∨ given = s.fill chunk - 1 := by
  rw [hgave.given_eq]
  split
  · exact .inl rfl
  · exact .inr rfl

theorem GaveUp.given_last {moved : Cell V}
    (hmoved : s.cell? chunk (s.fill chunk - 1) = some moved) : given = s.fill chunk - 1 := by
  rw [hgave.given_eq, if_neg]
  rintro ⟨-, hnone⟩
  rw [hmoved] at hnone
  cases hnone

theorem GaveUp.given_row
    (hstill : row = s.fill chunk - 1 ∨ s.cell? chunk (s.fill chunk - 1) = none) : given = row := by
  rw [hgave.given_eq]
  split
  · rfl
  · rename_i hhole
    rcases hstill with heq | hnone
    · exact heq.symm
    · exact Decidable.byContradiction fun hne => hhole ⟨fun heq => hne heq.symm, hnone⟩

include hvacated

theorem Vacated.ids_of_moved {moved : Cell V} (hne : row ≠ s.fill chunk - 1)
    (hmoved : s.cell? chunk (s.fill chunk - 1) = some moved) :
    s'.ids = (s.relocate moved.item (s.format.slotId chunk row)).ids := by
  have hlast := hgave.given_last hmoved
  rcases hvacated.ids with ⟨hrow, -⟩ | ⟨-, moved', hmoved', hids⟩
  · exact absurd (hrow.symm.trans hlast) hne
  · rw [hlast, hmoved] at hmoved'
    cases hmoved'
    exact hids

theorem Vacated.ids_of_still
    (hstill : row = s.fill chunk - 1 ∨ s.cell? chunk (s.fill chunk - 1) = none) :
    s'.ids = s.ids := by
  rcases hvacated.ids with ⟨-, hids⟩ | ⟨hne, -⟩
  · exact hids
  · exact absurd (hgave.given_row hstill) hne

/-- An item that does not move keeps its id. -/
theorem Vacated.idOf_other {item : Nat}
    (hitem : ∀ moved, s.cell? chunk (s.fill chunk - 1) = some moved → item ≠ moved.item) :
    s'.idOf item = s.idOf item := by
  rcases hvacated.ids with ⟨-, hids⟩ | ⟨hne, moved, hmoved, hids⟩
  · rw [idOf, idOf, hids]
  · have hlast : given = s.fill chunk - 1 := hgave.given_cases.resolve_left hne
    rw [hlast] at hmoved
    have hother := hitem moved hmoved
    rw [idOf, idOf, hids, relocate, setId, Array.getElem?_setIfInBounds_ne (Ne.symm hother)]

end

theorem Removed.of_gaveUp {chunk row given : Nat} {cell : Cell V} (hs : Chained s)
    (hs' : Chained s') (hc : chunk ∈ s.chain partition) (hcell : s.cell? chunk row = some cell)
    (hvacated : Vacated s s' chunk row given) (hgave : GaveUp s s' partition chunk row given) :
    Removed s s' partition chunk row given := by
  have hrows : ∀ c, c ≠ chunk → s'.rows c = s.rows c := fun c hne =>
    hvacated.rows_other hne (by rw [hgave.fill, if_neg fun heq => hne heq.1])
  refine ⟨hvacated.same, hgave.given_eq, ?_, ?_, ?_, ?_, ?_, ?_, ?_⟩
  · rw [hvacated.cell, if_pos ⟨rfl, rfl⟩]
  · intro moved hne hmoved
    have hlast := hgave.given_last hmoved
    have hids := hvacated.ids_of_moved hgave hne hmoved
    refine ⟨?_, hids, fun hitem => ?_⟩
    · rw [hvacated.cell, if_neg fun heq => hne (heq.2.trans hlast), if_pos ⟨rfl, rfl⟩, hlast,
        hmoved]
    · have hid : s'.idOf moved.item =
          SlotId.relocate (s.idOf moved.item) (s.format.slotId chunk row) := by
        rw [idOf, hids]
        exact (idOf_setId s moved.item _ moved.item hitem).trans (if_pos rfl)
      have hplain := hs.slotId_isPlain (hs.chain_lt partition chunk hc)
        (hs.lt_rowsPerChunk (lt_fill_of_cell? hcell))
      rw [hid, SlotId.place_relocate, SlotId.flags_relocate, SlotId.place_of_isPlain hplain]
      exact ⟨rfl, rfl⟩
  · intro hstill
    refine ⟨?_, hvacated.ids_of_still hgave hstill⟩
    rw [hvacated.cell, if_pos ⟨rfl, (hgave.given_row hstill).symm⟩]
  · intro c r hother
    have hgiven : ¬ (c = chunk ∧ r = given) := by
      rintro ⟨rfl, rfl⟩
      exact hother ⟨rfl, hgave.given_cases⟩
    rw [hvacated.cell, if_neg hgiven, if_neg fun heq => hother ⟨heq.1, .inl heq.2⟩]
  · intro item
    exact hvacated.idOf_other hgave
  · -- The chain is the same, and of its chunks only this one holds an item less.
    obtain ⟨before, behind, hchain⟩ := List.append_of_mem hc
    have hnodup : (before ++ chunk :: behind).Nodup :=
      hchain ▸ (hs.ascending partition).imp Nat.ne_of_lt
    have hbefore := flatMap_walkChunk hvacated.same.format fun c hmem => hrows c fun heq =>
      (List.nodup_append.mp hnodup).2.2 c hmem chunk (List.mem_cons_self ..) heq
    have hbehind := flatMap_walkChunk hvacated.same.format fun c hmem => hrows c fun heq =>
      (List.nodup_cons.mp (List.nodup_append.mp hnodup).2.1).1 (heq ▸ hmem)
    have hself := hvacated.publishedCount_self hcell hs hs'
    rw [walk_eq, walk_eq, hvacated.same.chain, hchain]
    simp only [List.flatMap_append, List.flatMap_cons, List.length_append, length_walkChunk,
      hbefore, hbehind]
    omega
  · intro q hq
    rw [walk_eq, walk_eq, hvacated.same.chain]
    refine flatMap_walkChunk hvacated.same.format fun c hcq => hrows c ?_
    rintro rfl
    exact hq (hs.chain_disjoint q partition c hcq hc)

/-! ### Ids that name rows -/

/-- An id names the row that it leads to. -/
theorem Chained.names_of_locate (h : Chained s) {id : SlotId} {chunk row : Nat}
    (hlocate : s.locate partition id = some (chunk, row)) : s.Names partition id chunk row := by
  obtain ⟨heq, hc, -⟩ := h.locate_eq_some_iff.mp hlocate
  cases heq
  exact ⟨hc, IdFormat.place_eq_slotId h.valid id⟩

/-- An id that names a claimed row leads to it, whatever its flags are. -/
theorem Names.locate (h : Chained s) {id : SlotId} {chunk row : Nat}
    (hnames : s.Names partition id chunk row) (hrow : row < s.fill chunk) :
    s.locate partition id = some (chunk, row) := by
  have hlt := h.chain_lt partition chunk hnames.mem_chain
  have hr := h.lt_rowsPerChunk hrow
  rw [h.locate_eq_some_iff, ← IdFormat.chunkOf_place, ← IdFormat.rowOf_place h.valid,
    hnames.place, h.chunkOf_slotId hlt hr, h.rowOf_slotId hlt hr]
  exact ⟨rfl, hnames.mem_chain, hrow⟩

end RowStore

namespace Pool

variable {T V : Type} [ComponentType T]

/-- How a removal may end, for every id and every check. -/
structure RemovalFrame (pool : Pool T V) : Prop where
  /-- Where no item is, a removal is refused whatever the check would say. -/
  unknown : ∀ partition id,
    (∀ chunk row, pool.store.Names partition id chunk row → pool.store.cell? chunk row = none) →
      ∀ (α : Type) (accept : RowView V → Except StoreError α),
        pool.store.evict partition id accept = (.error .entityNotFound, pool.store)
  /-- Where the memory refuses room for the slot that would be given up, a removal is refused
  whatever the check would say. -/
  crowded : ∀ partition id chunk row cell, pool.store.Names partition id chunk row →
    pool.store.cell? chunk row = some cell → ∀ e, pool.store.LacksRoom partition e →
      (∃ bytes, e = .allocationFailed bytes) ∧
        ∀ (α : Type) (accept : RowView V → Except StoreError α),
          pool.store.evict partition id accept = (.error e, pool.store)
  /-- A removal that the check refuses leaves all rows and ids as they are, and nothing that is
  called later is answered in another way, unless a later removal is refused room. -/
  refused : ∀ partition id chunk row cell, pool.store.Names partition id chunk row →
    pool.store.cell? chunk row = some cell → pool.store.FindsRoom partition →
      ∀ (α : Type) (accept : RowView V → Except StoreError α) (e : StoreError),
        accept (pool.store.view chunk row) = .error e →
          ∃ store, pool.store.evict partition id accept = (.error e, store) ∧
            pool.store.Alike store ∧
              ∀ calls, pool.Orderly calls → RowStore.RoomyFor pool.store.memory calls →
                store.answers calls = pool.store.answers calls
  /-- A removal that the check agrees to gives up one slot of the chunk, which is empty then and
  whose id is not out. -/
  accepted : ∀ partition id chunk row cell, pool.store.Names partition id chunk row →
    pool.store.cell? chunk row = some cell → pool.store.FindsRoom partition →
      ∀ (α : Type) (accept : RowView V → Except StoreError α) (a : α),
        accept (pool.store.view chunk row) = .ok a →
          ∃ given store, pool.store.evict partition id accept =
              (.ok ⟨a, cell.item, cell.values, pool.store.format.slotId chunk given⟩, store) ∧
            pool.store.Removed store partition chunk row given ∧
              given < pool.store.format.rowsPerChunk ∧
                pool.store.format.slotId chunk given ∉ pool.reserved

theorem removalFrame_of_sound {pool : Pool T V} (h : pool.store.Sound pool.reserved) :
    pool.RemovalFrame := by
  refine ⟨?_, ?_, ?_, ?_⟩
  · intro partition id hnone α accept
    exact RowStore.evict_absent fun chunk row hlocate =>
      hnone chunk row (h.toChained.names_of_locate hlocate)
  · intro partition id chunk row cell hnames hcell e hlacks
    have hlocate := hnames.locate h.toChained (RowStore.lt_fill_of_cell? hcell)
    exact ⟨hlacks.failed h, fun α accept => RowStore.evict_of_lacksRoom hlocate hcell hlacks⟩
  · intro partition id chunk row cell hnames hcell hfinds α accept e haccept
    have hlocate := hnames.locate h.toChained (RowStore.lt_fill_of_cell? hcell)
    obtain ⟨s₁, hmake⟩ := hfinds.makeRoom hlocate
    obtain ⟨hevict, halike, hsound⟩ := RowStore.evict_refused h hlocate hcell hmake haccept
    exact ⟨s₁, hevict, halike, fun calls horderly hroomy =>
      horderly.answers halike h hsound hroomy⟩
  · intro partition id chunk row cell hnames hcell hfinds α accept a haccept
    have hlocate := hnames.locate h.toChained (RowStore.lt_fill_of_cell? hcell)
    obtain ⟨s₁, hmake⟩ := hfinds.makeRoom hlocate
    obtain ⟨given, store, hevict, hemptied⟩ :=
      RowStore.evict_accepted h hlocate hcell hmake haccept
    have hvacated := hemptied.vacated
    obtain ⟨old, hold⟩ := Option.isSome_iff_exists.mp (hvacated.given_published hcell)
    exact ⟨given, store, hevict,
      .of_gaveUp h.toChained hemptied.sound.toChained hnames.mem_chain hcell hvacated
        hemptied.gaveUp,
      h.lt_rowsPerChunk hvacated.given_lt, (h.not_free_of_published hnames.mem_chain hold).1⟩

/-- Whatever was called, a removal leaves the other items alone. -/
theorem Orderly.removal_frame {rowBits : Nat} {limit : Option Nat} {format : IdFormat}
    (hformat : IdFormat.create rowBits limit = .ok format) {calls : List (RowStore.Call T V)}
    (horderly : (Pool.empty format).Orderly calls) :
    ((Pool.empty format).after calls).RemovalFrame :=
  removalFrame_of_sound (horderly.sound_of_empty hformat)

/-- Three items in the rows of one chunk, the last of which gets the reserved flag. -/
def seating : List (RowStore.Call Sample Nat) :=
  [.newPartition [.position], .newItem, .newItem, .newItem, .insert 0 0 [10], .insert 0 1 [11],
    .insert 0 2 [12], .setId 2 (SlotId.reserve 2)]

def seated : Pool Sample Nat := (Pool.empty ⟨2, 1 <<< 28⟩).after seating

/-- When the first item is removed, the last one moves into its row and keeps its flag. -/
theorem removal_frame_seated :
    IdFormat.create 2 none = .ok ⟨2, 1 <<< 28⟩ ∧
      (Pool.empty ⟨2, 1 <<< 28⟩ : Pool Sample Nat).Orderly seating ∧
      (seated.store.release 0 0).1.toOption = some ⟨(), 0, [10], 2⟩ ∧
      (seated.store.release 0 0).2.cell? 0 0 = some ⟨2, [12]⟩ ∧
      (seated.store.release 0 0).2.ids = #[0, 1, SlotId.reserve 0] ∧ seated.RemovalFrame := by
  have hformat : IdFormat.create 2 none = .ok ⟨2, 1 <<< 28⟩ := rfl
  have horderly : (Pool.empty ⟨2, 1 <<< 28⟩ : Pool Sample Nat).Orderly seating := by
    simp only [seating, Orderly, Allows, and_self]
  refine ⟨hformat, horderly, ?_, ?_, ?_, Orderly.removal_frame hformat horderly⟩
  · decide +kernel
  · decide +kernel
  · decide +kernel

end Pool

end ArchetypeStore

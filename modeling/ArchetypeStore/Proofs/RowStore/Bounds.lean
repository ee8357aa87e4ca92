import ArchetypeStore.Proofs.RowStore.Checked

/-! # Removal within bounds, and whole runs

  A removal is where most bounds meet: it subtracts from a fill index, moves the last row of
  a chunk into the gap, and puts an id back on a free stack, which has to take it. With it
  all calls of a row store have been gone through, and so a run of calls breaks no bound.
-/

namespace ArchetypeStore

open Breach (require require_bind)

namespace RowStore

variable {T V : Type} {s s' : RowStore T V} {reserved : List SlotId} {partition : Nat}

/-! ### Removal -/

/-- Push an id on the free stack of a partition, which takes it. -/
def pushFreeChecked (s : RowStore T V) (partition : Nat) (id : SlotId) :
    Except Breach (RowStore T V) :=
  match s.partitions[partition]? with
  | none => .ok s
  | some p => do
    let freeIds ← p.freeIds.pushChecked id
    return s.setFreeIds partition freeIds

/-- Make room for one more id on the free stack. The wider stack takes all ids of the old
one. -/
def makeRoomChecked (s : RowStore T V) (partition : Nat) :
    Except Breach (Except StoreError Unit × RowStore T V) :=
  match s.partitions[partition]? with
  | none => .ok (.error .entityNotFound, s)
  | some p =>
    if p.freeIds.size < p.freeIds.capacity then .ok (.ok (), s)
    else
      match BoundedStack.allocate s.memory .freeIds .bits32
          (max (p.freeIds.capacity * 2) s.format.rowsPerChunk) with
      | .error e => .ok (.error e, s)
      | .ok grown => do
        let (ids, _) ← p.freeIds.drainChecked
        let grown ← grown.pushAllChecked ids.reverse
        return (.ok (), s.setFreeIds partition grown)

/-- Give up the last claimed row of a chunk. -/
def giveUpLastChecked (s : RowStore T V) (partition chunk last : Nat) :
    Except Breach (SlotId × RowStore T V) := do
  let id ← s.slotIdChecked chunk last
  if s.partitions[partition]?.bind Partition.current? = some chunk then
    return (id, s.modifyRows chunk Array.pop)
  else
    let s ← (s.modifyRows chunk Array.pop).pushFreeChecked partition id
    return (id, s)

/-- Empty a claimed row. There is a last claimed row, and if it moves, all its columns do. -/
def evictRowChecked (s : RowStore T V) (partition chunk row : Nat) :
    Except Breach (SlotId × RowStore T V) := do
  require (1 ≤ s.fill chunk) .underflow
  let last := s.fill chunk - 1
  if row = last then s.giveUpLastChecked partition chunk last
  else
    match s.cell? chunk last with
    | none =>
      let id ← s.slotIdChecked chunk row
      let s ← (s.setCell chunk row none).pushFreeChecked partition id
      return (id, s)
    | some moved =>
      require (last < s.format.rowsPerChunk) .rowNumber
      require (moved.values.length = s.columnCount chunk) .column
      let id ← s.slotIdChecked chunk row
      ((s.setCell chunk row (some moved)).relocate moved.item id).giveUpLastChecked partition
        chunk last

/-- Remove the item at `id` once `accept` agrees to the row. -/
def evictChecked {α : Type} (s : RowStore T V) (partition : Nat) (id : SlotId)
    (accept : RowView V → Except StoreError α) :
    Except Breach (Except StoreError (Evicted α V) × RowStore T V) :=
  match s.locate partition id with
  | none => .ok (.error .entityNotFound, s)
  | some (chunk, row) =>
    match s.cell? chunk row with
    | none => .ok (.error .entityNotFound, s)
    | some cell => do
      match ← s.makeRoomChecked partition with
      | (.error e, s) => return (.error e, s)
      | (.ok (), s) =>
        let id ← s.slotIdChecked chunk row
        match accept ⟨id, chunk, row, s.cell? chunk row⟩ with
        | .error e => return (.error e, s)
        | .ok a =>
          require (cell.values.length = s.columnCount chunk) .column
          let (id, s) ← s.evictRowChecked partition chunk row
          return (.ok ⟨a, cell.item, cell.values, id⟩, s)

theorem pushFreeChecked_eq {p : Partition T} (hp : s.partitions[partition]? = some p)
    (hroom : p.freeIds.top < p.freeIds.capacity) {id : SlotId} (hid : id.isPlain = true) :
    s.pushFreeChecked partition id = .ok (s.pushFree partition id) := by
  unfold pushFreeChecked
  rw [hp]
  dsimp only
  rw [BoundedStack.pushChecked_eq (SlotId.ne_marker_of_isPlain hid) hroom, Breach.ok_bind,
    Breach.pure_eq, setFreeIds, pushFree]
  congr 1
  unfold modifyPartition
  congr 1
  refine Array.ext_getElem? fun q => ?_
  rw [Array.getElem?_modify, Array.getElem?_modify]
  split
  · rename_i heq
    rw [← heq, hp]
    rfl
  · rfl

/-- The ids on a free stack are no markers, and the wider stack has more slots than they need. -/
theorem makeRoomChecked_eq (h : Sound s reserved) (partition : Nat) :
    s.makeRoomChecked partition = .ok (s.makeRoom partition) := by
  unfold makeRoomChecked makeRoom
  cases hp : s.partitions[partition]? with
  | none => rfl
  | some p =>
    dsimp only
    split
    · rfl
    · rename_i hfull
      cases hwider : BoundedStack.allocate s.memory .freeIds .bits32
          (max (p.freeIds.capacity * 2) s.format.rowsPerChunk) with
      | error e => rfl
      | ok wider =>
        have hfits := h.room partition p hp
        -- A push refuses nothing but the marker, which is no id.
        have hvalues : ∀ value ∈ p.freeIds.drain.1.reverse,
            value ≠ UInt32.ofNat SlotId.detachedBit := by
          intro value hvalue
          rw [BoundedStack.drain_toList, List.mem_reverse, ← freeList_eq hp] at hvalue
          exact h.ne_marker_of_free hvalue
        have hroom : wider.top + p.freeIds.drain.1.reverse.length ≤ wider.capacity := by
          have hsize : p.freeIds.toList.length = p.freeIds.top := BoundedStack.length_toList _
          rw [BoundedStack.allocate_ok hwider, List.length_reverse, BoundedStack.drain_toList,
            hsize]
          simp only [BoundedStack.ofCapacity]
          omega
        dsimp only
        rw [BoundedStack.drainChecked_eq hfits, Breach.ok_bind,
          BoundedStack.pushAllChecked_eq hvalues hroom]
        rfl

section room

variable {p : Partition T} {chunk row : Nat} {cell : Cell V} (h : Sound s reserved)
  (hp : s.partitions[partition]? = some p) (hroom : p.freeIds.top < p.freeIds.capacity)
  (hc : chunk ∈ s.chain partition)

include h hp hroom hc

theorem giveUpLastChecked_eq {last : Nat} (hlast : last < s.format.rowsPerChunk) :
    s.giveUpLastChecked partition chunk last =
      .ok (s.format.slotId chunk last, s.giveUpLast partition chunk last) := by
  have hplain := h.slotId_isPlain (h.chain_lt partition chunk hc) hlast
  have hp' : (s.modifyRows chunk Array.pop).partitions[partition]? = some p := hp
  unfold giveUpLastChecked giveUpLast
  rw [slotIdChecked_eq h.toChained hc hlast, Breach.ok_bind]
  split
  · rfl
  · rw [pushFreeChecked_eq hp' hroom hplain]
    rfl

/-- A row that holds an item is claimed, and so there is a last claimed row. -/
theorem evictRowChecked_eq (hcell : s.cell? chunk row = some cell)
    (hcolumns : ∀ r moved, s.cell? chunk r = some moved →
      moved.values.length = s.columnCount chunk) :
    s.evictRowChecked partition chunk row = .ok (s.evictRow partition chunk row) := by
  have hfill := lt_fill_of_cell? hcell
  have hrow := h.lt_rowsPerChunk hfill
  have hlast : s.fill chunk - 1 < s.format.rowsPerChunk := by
    have := h.fill_le chunk
    omega
  unfold evictRowChecked evictRow
  rw [require_bind (Nat.one_le_of_lt hfill)]
  dsimp only
  split
  · rw [giveUpLastChecked_eq h hp hroom hc hlast]
  · cases hmoved : s.cell? chunk (s.fill chunk - 1) with
    | none =>
      have hplain := h.slotId_isPlain (h.chain_lt partition chunk hc) hrow
      have hp' : (s.setCell chunk row none).partitions[partition]? = some p := hp
      dsimp only
      rw [slotIdChecked_eq h.toChained hc hrow, Breach.ok_bind, pushFreeChecked_eq hp' hroom hplain]
      rfl
    | some moved =>
      -- The last row is given up in the state in which its item is in the gap.
      obtain ⟨hsound, hsame, -⟩ := moveInto_sound h moved hcell
      have hp' : (s.moveInto chunk row moved).partitions[partition]? = some p := hp
      have hc' : chunk ∈ (s.moveInto chunk row moved).chain partition := by
        rw [hsame.chain]
        exact hc
      dsimp only
      rw [require_bind hlast, require_bind (hcolumns _ moved hmoved),
        slotIdChecked_eq h.toChained hc hrow, Breach.ok_bind]
      exact giveUpLastChecked_eq hsound hp' hroom hc' hlast

end room

section regular

variable [ComponentType T]

theorem evictChecked_eq {α : Type} (h : Regular s reserved) (partition : Nat) (id : SlotId)
    (accept : RowView V → Except StoreError α) :
    s.evictChecked partition id accept = .ok (s.evict partition id accept) := by
  unfold evictChecked evict
  cases hlocate : s.locate partition id with
  | none => rfl
  | some place =>
    obtain ⟨chunk, row⟩ := place
    obtain ⟨hc, hr⟩ := h.toChained.of_locate hlocate
    dsimp only
    cases hcell : s.cell? chunk row with
    | none => rfl
    | some cell =>
      dsimp only
      rw [makeRoomChecked_eq h.toSound, Breach.ok_bind]
      cases hmake : s.makeRoom partition with
      | mk answer s₁ =>
        cases answer with
        | error e => rfl
        | ok =>
          obtain ⟨halike, hsound, p, hp, hroom⟩ := makeRoom_ok h.toSound hmake
          -- What is known of the rows is known after room was made as well.
          have hc₁ : chunk ∈ s₁.chain partition := by
            rw [halike.chain]
            exact hc
          have hr₁ : row < s₁.format.rowsPerChunk := by
            rw [halike.format]
            exact hr
          have hcolumns : ∀ r moved, s₁.cell? chunk r = some moved →
              moved.values.length = s₁.columnCount chunk := by
            intro r moved hmoved
            rw [halike.cell?] at hmoved
            rw [columnCount, halike.chunks]
            exact h.tabular.length_values h.toWired h.toChained hc hmoved
          have hcell₁ : s₁.cell? chunk row = some cell := (halike.cell? chunk row).trans hcell
          dsimp only
          rw [slotIdChecked_eq hsound.toChained hc₁ hr₁, Breach.ok_bind]
          show (match accept (s₁.view chunk row) with | .error e => _ | .ok a => _) = _
          cases accept (s₁.view chunk row) with
          | error e => rfl
          | ok a =>
            dsimp only
            rw [require_bind (hcolumns row cell hcell₁),
              evictRowChecked_eq hsound hp hroom hc₁ hcell₁ hcolumns]
            rfl

/-! ### Calls -/

/-- What a call answers, and what it leaves. The calls that are not named test all that they
rely on. -/
def performChecked (s : RowStore T V) :
    Call T V → Except Breach (Except StoreError (Answer V) × RowStore T V)
  | .issue partition => do return answering .id (← s.issueChecked partition)
  | .occupy partition id item values => do
    return answering (fun _ => .done) (← s.occupyChecked partition id item values)
  | .insert partition item values => do
    return answering .id (← s.insertChecked partition item values)
  | .evict partition id accept => do
    return answering (fun e => .evicted e.item e.values e.id)
      (← s.evictChecked partition id accept)
  | .row partition id => do return ((← s.rowChecked partition id).map .row, s)
  | .rewrite partition id f => do return answering .row (← s.rewriteChecked partition id f)
  | call => .ok (s.perform call)

/-- A call that fills the columns of its row keeps all bounds. -/
theorem performChecked_eq (h : Regular s reserved) {call : Call T V} (hfills : s.Fills call) :
    s.performChecked call = .ok (s.perform call) := by
  cases call with
  | newPartition layout => rfl
  | newItem => rfl
  | setId item id => rfl
  | issue partition =>
    rw [performChecked, issueChecked_eq h.toSound]
    rfl
  | occupy partition id item values =>
    rw [performChecked, occupyChecked_eq h.toChained h.toWired id item hfills]
    rfl
  | insert partition item values =>
    rw [performChecked, insertChecked_eq h item hfills]
    rfl
  | evict partition id accept =>
    rw [performChecked, evictChecked_eq h]
    rfl
  | row partition id =>
    rw [performChecked, rowChecked_eq h.toChained]
    rfl
  | rewrite partition id f =>
    rw [performChecked, rewriteChecked_eq h id hfills]
    rfl
  | memory m => rfl

end regular

/-- What the bounds come to between two calls. -/
structure InBounds (s : RowStore T V) : Prop where
  chunks : ∀ q, ∀ chunk ∈ s.chain q, chunk < s.format.maxChunks
  fill : ∀ chunk, s.fill chunk ≤ s.format.rowsPerChunk
  freeFits : s.FreeFits
  free : ∀ q, ∀ id ∈ s.freeList q, s.format.chunkOf id ∈ s.chain q

theorem Sound.inBounds (h : Sound s reserved) : InBounds s where
  chunks q chunk hc := h.lt_maxChunks (h.chain_lt q chunk hc)
  fill := h.fill_le
  freeFits := h.room
  free _ _ hid := h.free_owned hid

end RowStore

/-! ### Runs -/

namespace Pool

variable {T V : Type} [ComponentType T]

/-- What a call leaves of a pool. -/
def nextChecked (pool : Pool T V) (call : RowStore.Call T V) : Except Breach (Pool T V) := do
  let (answer, store) ← pool.store.performChecked call
  return ⟨store, outstanding pool.reserved call answer⟩

/-- What is left after calls, the first one first. -/
def runChecked (pool : Pool T V) : List (RowStore.Call T V) → Except Breach (Pool T V)
  | [] => .ok pool
  | call :: rest => do
    let pool ← pool.nextChecked call
    pool.runChecked rest

/-- Each call fills the columns of its row when its turn comes. -/
def Filling (pool : Pool T V) : List (RowStore.Call T V) → Prop
  | [] => True
  | call :: rest => pool.store.Fills call ∧ (pool.next call).Filling rest

theorem nextChecked_eq {pool : Pool T V} (h : pool.store.Regular pool.reserved)
    {call : RowStore.Call T V} (hfills : pool.store.Fills call) :
    pool.nextChecked call = .ok (pool.next call) := by
  rw [nextChecked, RowStore.performChecked_eq h hfills]
  rfl

theorem runChecked_eq {pool : Pool T V} (h : pool.store.Regular pool.reserved)
    {calls : List (RowStore.Call T V)} (horderly : pool.Orderly calls)
    (hfilling : pool.Filling calls) :
    pool.runChecked calls = .ok (pool.after calls) ∧
      (pool.after calls).store.Regular (pool.after calls).reserved := by
  induction calls generalizing pool with
  | nil => exact ⟨rfl, h⟩
  | cons call rest ih =>
    rw [runChecked, nextChecked_eq h hfilling.1, Breach.ok_bind]
    exact ih (next_regular h horderly.1 hfilling.1).1 horderly.2 hfilling.2

end Pool

end ArchetypeStore

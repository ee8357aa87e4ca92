import ArchetypeStore.RowStore.Basic

/-! # Removal from a partition

  Removing an item keeps the rows of its chunk dense: the last claimed row moves into the
  gap and its item takes the id of the gap. Only when the last row is claimed and empty
  does it stay, since its id is still out; the gap then becomes a hole. The id that was
  given up is on the free stack, or is the next row of the current chunk.
-/

namespace ArchetypeStore

/-- What a removal answers. -/
structure Evicted (α V : Type) where
  /-- The answer of the caller's check. -/
  answer : α
  /-- The item that was removed. -/
  item : Nat
  /-- Its values, which now belong to the caller. -/
  values : List V
  /-- The id that was given up. -/
  id : SlotId
  deriving DecidableEq

namespace RowStore

variable {T V : Type}

/-- Push an id on the free stack of a partition. -/
def pushFree (s : RowStore T V) (partition : Nat) (id : SlotId) : RowStore T V :=
  s.modifyPartition partition fun p => { p with freeIds := (p.freeIds.push id).2 }

/-- Make room for one more id on the free stack: a full stack is copied, in order, to one
of twice the size, but at least of the size of a chunk. -/
def makeRoom (s : RowStore T V) (partition : Nat) :
    Except StoreError Unit × RowStore T V :=
  match s.partitions[partition]? with
  | none => (.error .entityNotFound, s)
  | some p =>
    if p.freeIds.size < p.freeIds.capacity then (.ok (), s)
    else
      match BoundedStack.allocate s.memory .freeIds .bits32
          (max (p.freeIds.capacity * 2) s.format.rowsPerChunk) with
      | .error e => (.error e, s)
      | .ok grown =>
        (.ok (), s.setFreeIds partition (grown.pushAll p.freeIds.drain.1.reverse))

/-- Give up the last claimed row of a chunk. Its id goes on the free stack, unless the
chunk is current and will claim the row again. -/
def giveUpLast (s : RowStore T V) (partition chunk last : Nat) : RowStore T V :=
  if s.partitions[partition]?.bind Partition.current? = some chunk then
    s.modifyRows chunk Array.pop
  else
    (s.modifyRows chunk Array.pop).pushFree partition (s.format.slotId chunk last)

/-- Write what another row held into a row, whose id its item takes. -/
def moveInto (s : RowStore T V) (chunk row : Nat) (cell : Cell V) : RowStore T V :=
  (s.setCell chunk row (some cell)).relocate cell.item (s.format.slotId chunk row)

/-- Empty a claimed row. The answer is the id that was given up. -/
def evictRow (s : RowStore T V) (partition chunk row : Nat) : SlotId × RowStore T V :=
  let last := s.fill chunk - 1
  if row = last then
    (s.format.slotId chunk last, s.giveUpLast partition chunk last)
  else
    match s.cell? chunk last with
    | none =>
      -- The last row is reserved or a hole. Nothing can move, and the gap stays.
      (s.format.slotId chunk row,
        (s.setCell chunk row none).pushFree partition (s.format.slotId chunk row))
    | some moved =>
      (s.format.slotId chunk last,
        (s.moveInto chunk row moved).giveUpLast partition chunk last)

/-- Remove the item at `id` once `accept` agrees to the row. When it refuses, the row
stays as it is. -/
def evict {α : Type} (s : RowStore T V) (partition : Nat) (id : SlotId)
    (accept : RowView V → Except StoreError α) :
    Except StoreError (Evicted α V) × RowStore T V :=
  match s.locate partition id with
  | none => (.error .entityNotFound, s)
  | some (chunk, row) =>
    match s.cell? chunk row with
    | none => (.error .entityNotFound, s)
    | some cell =>
      match s.makeRoom partition with
      | (.error e, s) => (.error e, s)
      | (.ok (), s) =>
        match accept (s.view chunk row) with
        | .error e => (.error e, s)
        | .ok a =>
          match s.evictRow partition chunk row with
          | (id, s) => (.ok ⟨a, cell.item, cell.values, id⟩, s)

/-- Remove the item at `id`, whatever its row holds. -/
def release (s : RowStore T V) (partition : Nat) (id : SlotId) :
    Except StoreError (Evicted Unit V) × RowStore T V :=
  s.evict partition id fun _ => .ok ()

/-- The values in all published rows of all chunks. -/
def storedValues (s : RowStore T V) : List V :=
  s.chunks.toList.flatMap fun c => c.published.flatMap fun (_, cell) => cell.values

end RowStore

end ArchetypeStore

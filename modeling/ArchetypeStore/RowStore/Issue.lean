import ArchetypeStore.RowStore.Growth

/-! # Issue of slot ids

  An id is issued from the free stack first, then from the current chunk, and only then
  from a new chunk. An issued id reserves its row until an item occupies it.
-/

namespace ArchetypeStore.RowStore

variable {T V : Type}

/-- Claim the next row of the current chunk, if there is room. -/
def claimNext (s : RowStore T V) (partition : Nat) : Option SlotId × RowStore T V :=
  match s.partitions[partition]?.bind Partition.current? with
  | none => (none, s)
  | some chunk =>
    if s.fill chunk < s.format.rowsPerChunk then
      (some (s.format.slotId chunk (s.fill chunk)), s.modifyRows chunk (·.push none))
    else (none, s)

/-- Claim the rows of a chunk up to `row`; rows claimed before stay as they are. -/
def claimUpTo (s : RowStore T V) (chunk row : Nat) : RowStore T V :=
  s.modifyRows chunk fun rows => rows ++ Array.replicate (row + 1 - rows.size) none

/-- Issue an id from the free stack, or else from the current chunk. An id on the stack
whose chunk is not in the chain is passed over. -/
def issueSpare (s : RowStore T V) (partition : Nat) : Option SlotId × RowStore T V :=
  match s.partitions[partition]? with
  | none => (none, s)
  | some p =>
    match p.freeIds.pop with
    | (none, _) => s.claimNext partition
    | (some id, freeIds) =>
      if p.owns (s.format.chunkOf id) then
        (some id,
          (s.setFreeIds partition freeIds).claimUpTo (s.format.chunkOf id)
            (s.format.rowOf id))
      else (s.setFreeIds partition freeIds).claimNext partition

variable [ComponentType T]

/-- Issue an id; a full partition gets a new chunk. -/
def issue (s : RowStore T V) (partition : Nat) : Except StoreError SlotId × RowStore T V :=
  match s.issueSpare partition with
  | (some id, s) => (.ok id, s)
  | (none, s) =>
    match s.extend partition with
    | (.error e, s) => (.error e, s)
    | (.ok (), s) =>
      -- The new chunk has room, so this time there is an id.
      match s.issueSpare partition with
      | (some id, s) => (.ok id, s)
      | (none, s) => (.error (.chunkCapacityExhausted s.format.maxChunks), s)

/-- Write values into a claimed row and put an item there. A row that holds an item keeps
it, but its values are overwritten all the same. -/
def occupyRow (s : RowStore T V) (chunk row item : Nat) (values : List V) :
    Except StoreError Unit × RowStore T V :=
  match s.cell? chunk row with
  | none => (.ok (), s.setCell chunk row (some ⟨item, values⟩))
  | some old =>
    (.error (.duplicateValue (s.format.slotId chunk row).toNat),
      s.setCell chunk row (some ⟨old.item, values⟩))

/-- Store an item with its values in a row of its own. The answer is the id. -/
def insert (s : RowStore T V) (partition item : Nat) (values : List V) :
    Except StoreError SlotId × RowStore T V :=
  match s.issue partition with
  | (.error e, s) => (.error e, s)
  | (.ok id, s) =>
    match s.locate partition id with
    | none => (.error .entityNotFound, s)
    | some (chunk, row) =>
      match (s.setId item id).occupyRow chunk row item values with
      | (.error e, s) => (.error e, s)
      | (.ok (), s) => (.ok id, s)

omit [ComponentType T] in
/-- Store an item with its values in a row whose id was issued before. An item that meets
an occupied row has taken its id all the same; the values there stay. -/
def occupy (s : RowStore T V) (partition : Nat) (id : SlotId) (item : Nat)
    (values : List V) : Except StoreError Unit × RowStore T V :=
  match s.locate partition id with
  | none => (.error .entityNotFound, s)
  | some (chunk, row) =>
    match s.cell? chunk row with
    | none => (.ok (), (s.setId item id).setCell chunk row (some ⟨item, values⟩))
    | some _ =>
      (.error (.duplicateValue (s.format.slotId chunk row).toNat), s.setId item id)

end ArchetypeStore.RowStore

import ArchetypeStore.BoundedStack
import ArchetypeStore.ComponentType
import ArchetypeStore.SlotId

/-! # Row store

  A row store hands out chunks of `2 ^ rowBits` rows, numbered from 0 in the order in which
  they are made. A partition owns a chain of chunks and stores items in their rows. A row is
  empty or holds an item together with one value for each column of the chunk. The slot
  id of row `r` in chunk `c` packs the two numbers.

  The rows of a chunk below its fill index have been claimed. A claimed row may be empty:
  its id was issued and nothing is registered there yet, or it is a hole that a removal
  left. Ids that wait to be issued again lie on the free stack of the partition.
-/

namespace ArchetypeStore

/-! ### Types -/

/-- What a row holds when it is not empty. -/
structure Cell (V : Type) where
  /-- Number of the item. -/
  item : Nat
  /-- One value for each column, in column order. -/
  values : List V
  deriving DecidableEq

/-- A block of rows in the chain of one partition. -/
structure Chunk (T V : Type) where
  /-- Types of the columns. -/
  layout : List T
  /-- The claimed rows; the fill index is their number. -/
  rows : Array (Option (Cell V))
  /-- The chunk before this one in its chain. -/
  previous : Option Nat
  /-- The chunk behind this one in its chain. -/
  next : Option Nat
  deriving DecidableEq

/-- Ids that wait to be issued again. The detached flag alone is never an id. -/
abbrev FreeStack := BoundedStack SlotId (UInt32.ofNat SlotId.detachedBit)

/-- A storage partition: a chain of chunks with one layout. -/
structure Partition (T : Type) where
  /-- Types of the columns. -/
  layout : List T
  /-- Chunk numbers in the order in which they were made; the last one is current. -/
  chain : Array Nat
  /-- Ids that wait to be issued again. -/
  freeIds : FreeStack
  deriving DecidableEq

/-- All chunks and partitions, and the id word that each item carries. -/
structure RowStore (T V : Type) where
  /-- How ids are packed. -/
  format : IdFormat
  /-- Chunks by number. -/
  chunks : Array (Chunk T V)
  /-- Partitions by number. -/
  partitions : Array (Partition T)
  /-- The id word of each item. -/
  ids : Array SlotId
  /-- The memory that chunks, free stacks and values on their way are taken from. -/
  memory : Memory

/-- A row as an operation sees it. -/
structure RowView (V : Type) where
  /-- The id of the row. -/
  id : SlotId
  /-- The chunk of the row. -/
  chunk : Nat
  /-- The number of the row in its chunk. -/
  row : Nat
  /-- What the row holds. -/
  cell : Option (Cell V)
  deriving DecidableEq

/-! ### Search in a chain -/

/-- The position of `key` among ascending numbers, searched between `low` and `high` by
halving. -/
def bisect (numbers : Array Nat) (key low high : Nat) : Option Nat :=
  if low < high then
    match numbers[(low + high) / 2]? with
    | none => none
    | some number =>
      if number = key then some ((low + high) / 2)
      else if number < key then bisect numbers key ((low + high) / 2 + 1) high
      else bisect numbers key low ((low + high) / 2)
  else none
  termination_by high - low

namespace Partition

variable {T : Type}

/-- The chunk that new rows are claimed in. -/
def current? (p : Partition T) : Option Nat := p.chain.back?

/-- The position of a chunk in the chain. -/
def position? (p : Partition T) (chunk : Nat) : Option Nat :=
  bisect p.chain chunk 0 p.chain.size

/-- Does the chain hold the chunk? -/
def owns (p : Partition T) (chunk : Nat) : Bool := (p.position? chunk).isSome

end Partition

namespace Chunk

variable {T V : Type}

/-- The number of claimed rows. -/
def fill (c : Chunk T V) : Nat := c.rows.size

/-- What a row holds. -/
def cell? (c : Chunk T V) (row : Nat) : Option (Cell V) := c.rows[row]?.join

/-- The published rows from row `start` on, each with its number, ascending. -/
def publishedFrom (start : Nat) : List (Option (Cell V)) → List (Nat × Cell V)
  | [] => []
  | none :: rest => publishedFrom (start + 1) rest
  | some cell :: rest => (start, cell) :: publishedFrom (start + 1) rest

/-- The rows that hold an item, ascending. -/
def published (c : Chunk T V) : List (Nat × Cell V) := publishedFrom 0 c.rows.toList

end Chunk

namespace RowStore

variable {T V : Type}

/-! ### Reading -/

/-- A store without chunks, where memory is ample. -/
def empty (format : IdFormat) : RowStore T V := ⟨format, #[], #[], #[], .ample⟩

/-- From now on memory answers requests in another way. -/
def withMemory (s : RowStore T V) (memory : Memory) : RowStore T V := { s with memory }

/-- The number of claimed rows of a chunk. -/
def fill (s : RowStore T V) (chunk : Nat) : Nat := (s.chunks[chunk]?.map Chunk.fill).getD 0

/-- What a row holds. -/
def cell? (s : RowStore T V) (chunk row : Nat) : Option (Cell V) :=
  s.chunks[chunk]?.bind (·.cell? row)

/-- The number of chunks. -/
def chunkCount (s : RowStore T V) : Nat := s.chunks.size

/-- Claimed rows of all chunks. -/
def size (s : RowStore T V) : Nat := (s.chunks.toList.map Chunk.fill).foldr (· + ·) 0

/-- The chain of a partition. -/
def chain (s : RowStore T V) (partition : Nat) : List Nat :=
  match s.partitions[partition]? with
  | some p => p.chain.toList
  | none => []

/-- Claimed rows of a partition. -/
def partitionSize (s : RowStore T V) (partition : Nat) : Nat :=
  ((s.chain partition).map s.fill).foldr (· + ·) 0

/-- The number of ids on the free stack of a partition. -/
def freeIdCount (s : RowStore T V) (partition : Nat) : Nat :=
  (s.partitions[partition]?.map (·.freeIds.size)).getD 0

/-- The rows of a partition that hold an item, in chain order and ascending in each chunk. -/
def walk (s : RowStore T V) (partition : Nat) : List (RowView V) :=
  (s.chain partition).flatMap fun chunk =>
    match s.chunks[chunk]? with
    | none => []
    | some c => c.published.map fun (row, cell) =>
        ⟨s.format.slotId chunk row, chunk, row, some cell⟩

/-- The chunk and row of an id, if they are a claimed row of the partition. The flags of
the id are ignored. -/
def locate (s : RowStore T V) (partition : Nat) (id : SlotId) : Option (Nat × Nat) :=
  match s.partitions[partition]? with
  | none => none
  | some p =>
    if p.owns (s.format.chunkOf id) ∧ s.format.rowOf id < s.fill (s.format.chunkOf id) then
      some (s.format.chunkOf id, s.format.rowOf id)
    else none

/-- A row as an operation sees it. -/
def view (s : RowStore T V) (chunk row : Nat) : RowView V :=
  ⟨s.format.slotId chunk row, chunk, row, s.cell? chunk row⟩

/-- The row of an id. -/
def row (s : RowStore T V) (partition : Nat) (id : SlotId) : Except StoreError (RowView V) :=
  match s.locate partition id with
  | none => .error .entityNotFound
  | some (chunk, row) => .ok (s.view chunk row)

/-! ### Items -/

/-- The id word of an item. -/
def idOf (s : RowStore T V) (item : Nat) : SlotId := s.ids[item]?.getD 0

/-- Give an item a new id word. -/
def setId (s : RowStore T V) (item : Nat) (id : SlotId) : RowStore T V :=
  { s with ids := s.ids.setIfInBounds item id }

/-- Move an item to another slot; its flags stay. -/
def relocate (s : RowStore T V) (item : Nat) (id : SlotId) : RowStore T V :=
  s.setId item (SlotId.relocate (s.idOf item) id)

/-- A new item, numbered after those there are, with id word 0. -/
def newItem (s : RowStore T V) : Nat × RowStore T V :=
  (s.ids.size, { s with ids := s.ids.push 0 })

/-- Take back the item that was made last. -/
def dropLastItem (s : RowStore T V) : RowStore T V := { s with ids := s.ids.pop }

/-! ### Writing -/

/-- Change one chunk. -/
def modifyChunk (s : RowStore T V) (chunk : Nat) (f : Chunk T V → Chunk T V) : RowStore T V :=
  { s with chunks := s.chunks.modify chunk f }

/-- Change one partition. -/
def modifyPartition (s : RowStore T V) (partition : Nat) (f : Partition T → Partition T) :
    RowStore T V :=
  { s with partitions := s.partitions.modify partition f }

/-- Change the claimed rows of a chunk. -/
def modifyRows (s : RowStore T V) (chunk : Nat)
    (f : Array (Option (Cell V)) → Array (Option (Cell V))) : RowStore T V :=
  s.modifyChunk chunk fun c => { c with rows := f c.rows }

/-- Write a claimed row. -/
def setCell (s : RowStore T V) (chunk row : Nat) (cell : Option (Cell V)) : RowStore T V :=
  s.modifyRows chunk (·.setIfInBounds row cell)

/-- Replace the free stack of a partition. -/
def setFreeIds (s : RowStore T V) (partition : Nat) (freeIds : FreeStack) : RowStore T V :=
  s.modifyPartition partition fun p => { p with freeIds }

end RowStore

end ArchetypeStore

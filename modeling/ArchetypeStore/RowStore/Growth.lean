import ArchetypeStore.RowStore.Basic

/-! # Growth of a row store

  New chunks and new partitions. A chunk takes the next number; when its memory cannot be
  obtained it takes none. A new chunk of a partition is linked behind its current chunk and
  becomes the current one.
-/

namespace ArchetypeStore.RowStore

variable {T V : Type} [ComponentType T]

/-- Obtain the columns of a chunk in slot order, then the table of its items. -/
def allocateChunk (m : Memory) (capacity : Nat) : List T → Except StoreError Unit
  | [] => do
    let _ ← Buffer.reserve m .items .bits64 capacity
    return ()
  | t :: rest => do
    let _ ← ComponentType.allocateColumn m t capacity
    allocateChunk m capacity rest

omit [ComponentType T] in
/-- Link a chunk to the one behind it, unless it has one. -/
def linkNext (s : RowStore T V) (previous : Option Nat) (next : Nat) : RowStore T V :=
  match previous with
  | none => s
  | some previous =>
    s.modifyChunk previous fun c => { c with next := c.next.or (some next) }

omit [ComponentType T] in
/-- Add a chunk behind all there are. -/
def addChunk (s : RowStore T V) (chunk : Chunk T V) : RowStore T V :=
  { s with chunks := s.chunks.push chunk }

/-- Make a chunk behind `previous`. The answer is its number. A refusal changes nothing. -/
def newChunk (s : RowStore T V) (layout : List T) (previous : Option Nat) :
    Except StoreError Nat × RowStore T V :=
  if s.format.maxChunks ≤ s.chunkCount then
    (.error (.chunkCapacityExhausted s.format.maxChunks), s)
  else
    match allocateChunk s.memory s.format.rowsPerChunk layout with
    | .error e => (.error e, s)
    | .ok () =>
      (.ok s.chunkCount,
        (s.linkNext previous s.chunkCount).addChunk ⟨layout, #[], previous, none⟩)

/-- Make a partition with a first chunk. The answer is its number. -/
def newPartition (s : RowStore T V) (layout : List T) :
    Except StoreError Nat × RowStore T V :=
  match s.newChunk layout none with
  | (.error e, s) => (.error e, s)
  | (.ok chunk, s) =>
    match BoundedStack.allocate s.memory .freeIds .bits32 0 with
    | .error e => (.error e, s)
    | .ok freeIds =>
      (.ok s.partitions.size,
        { s with partitions := s.partitions.push ⟨layout, #[chunk], freeIds⟩ })

/-- Give a partition a new current chunk. -/
def extend (s : RowStore T V) (partition : Nat) :
    Except StoreError Unit × RowStore T V :=
  match s.partitions[partition]? with
  | none => (.error .entityNotFound, s)
  | some p =>
    match s.newChunk p.layout p.current? with
    | (.error e, s) => (.error e, s)
    | (.ok chunk, s) =>
      (.ok (), s.modifyPartition partition fun p => { p with chain := p.chain.push chunk })

end ArchetypeStore.RowStore

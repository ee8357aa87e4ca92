import ArchetypeStore.StoreError

/-! # Slot ids

  An id is a 32-bit word. From the high end it holds the detached flag, the reserved flag,
  the number of a chunk and the number of a row in that chunk. The format fixes how many
  of the low 30 bits number the row.
-/

namespace ArchetypeStore

/-! ### Flags -/

/-- A slot id, or the id word of an item with its flags. -/
abbrev SlotId := UInt32

namespace SlotId

/-- Bits for the chunk and the row together. -/
def placeBits : Nat := 30

/-- The word in which only the reserved flag is set. -/
def reservedBit : Nat := 1 <<< 30

/-- The word in which only the detached flag is set. -/
def detachedBit : Nat := 1 <<< 31

/-- Set once the entity has been destroyed. -/
def isDetached (id : SlotId) : Bool := id.toNat / detachedBit % 2 == 1

/-- Set while the entity moves between archetypes. -/
def isReserved (id : SlotId) : Bool := id.toNat / reservedBit % 2 == 1

/-- The id without its flags. -/
def place (id : SlotId) : SlotId := UInt32.ofNat (id.toNat % (1 <<< placeBits))

/-- The flags without the rest. -/
def flags (id : SlotId) : Nat := id.toNat / (1 <<< placeBits) * (1 <<< placeBits)

/-- Are both flags clear? -/
def isPlain (id : SlotId) : Bool := id.toNat < 1 <<< placeBits

/-- The id with the reserved flag set. -/
def reserve (id : SlotId) : SlotId :=
  if id.isReserved then id else UInt32.ofNat (id.toNat + reservedBit)

/-- The id with the detached flag set. -/
def detach (id : SlotId) : SlotId :=
  if id.isDetached then id else UInt32.ofNat (id.toNat + detachedBit)

/-- The id of an item that moves to another slot: the place is the new one, the flags stay. -/
def relocate (current new : SlotId) : SlotId :=
  UInt32.ofNat (new.toNat % (1 <<< placeBits) + current.flags)

end SlotId

/-! ### Format -/

/-- How the low bits of an id are divided between chunk and row. -/
structure IdFormat where
  /-- Bits of the row number. -/
  rowBits : Nat
  /-- Chunk numbers are below this. -/
  maxChunks : Nat
  deriving DecidableEq

namespace IdFormat

/-- Fewest row bits. -/
def minRowBits : Nat := 2

/-- Most row bits. -/
def maxRowBits : Nat := 24

/-- The format with `2 ^ rowBits` rows per chunk. The number of chunks is limited by the
bits that are left and, if given, by `limit`. -/
def create (rowBits : Nat) (limit : Option Nat) : Except StoreError IdFormat :=
  if rowBits < minRowBits ∨ maxRowBits < rowBits then
    .error (.invalidConfig ("chunk bit " ++ toString rowBits ++ " outside " ++
      toString minRowBits ++ "..=" ++ toString maxRowBits))
  else
    match limit with
    | some 0 => .error (.invalidConfig "max chunks must be at least 1")
    | some limit => .ok ⟨rowBits, min limit (1 <<< (SlotId.placeBits - rowBits))⟩
    | none => .ok ⟨rowBits, 1 <<< (SlotId.placeBits - rowBits)⟩

/-- Rows per chunk. -/
def rowsPerChunk (format : IdFormat) : Nat := 1 <<< format.rowBits

/-- The id of a row of a chunk, flags clear. -/
def slotId (format : IdFormat) (chunk row : Nat) : SlotId :=
  UInt32.ofNat (chunk * format.rowsPerChunk + row % format.rowsPerChunk)

/-- The chunk number of an id. -/
def chunkOf (format : IdFormat) (id : SlotId) : Nat :=
  id.toNat % (1 <<< SlotId.placeBits) / format.rowsPerChunk

/-- The row number of an id. -/
def rowOf (format : IdFormat) (id : SlotId) : Nat := id.toNat % format.rowsPerChunk

end IdFormat

end ArchetypeStore

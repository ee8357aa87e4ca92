import ArchetypeStore.StoreError

/-! # Memory

  Requests for memory and the answers to them. A request is described by what it is for and
  by a `Layout`, a size and an alignment in bytes. The alignment is a power of two, and the
  size rounded up to the alignment fits a signed 64-bit number. Any request may be refused,
  unless it is for no bytes; what is granted depends on the `Memory` that is asked.
-/

namespace ArchetypeStore

/-! ### Layouts -/

/-- The size of a request and the alignment of its address. -/
structure Layout where
  /-- Size in bytes. -/
  size : Nat
  /-- Alignment in bytes, a power of two. -/
  align : Nat
  deriving DecidableEq

namespace Layout

/-- The largest size that a layout of alignment 1 may have. -/
def maxSize : Nat := (1 <<< 63) - 1

/-- Powers of two, up to the widest word. -/
def isPowerOfTwo (n : Nat) : Bool := n != 0 && 1 <<< n.log2 == n

/-- May a layout have this size and alignment? -/
def isValid (size align : Nat) : Bool :=
  isPowerOfTwo align && size + (align - 1) ≤ maxSize

/-- The error for a size and alignment that no layout has. -/
def invalid : StoreError :=
  .invalidConfig "Invalid memory layout: invalid parameters to Layout::from_size_align"

/-- The layout of one value. -/
def ofSizeAlign (size align : Nat) : Except StoreError Layout :=
  if isValid size align then .ok ⟨size, align⟩ else .error invalid

/-- The layout of `length` values side by side. -/
def array (elementSize elementAlign length : Nat) : Except StoreError Layout :=
  ofSizeAlign (length * elementSize) elementAlign

end Layout

/-! ### Blocks -/

/-- A block of memory with one owner. -/
structure Block where
  /-- What was asked for. -/
  layout : Layout
  deriving DecidableEq

/-- Size in bytes. -/
def Block.size (b : Block) : Nat := b.layout.size

/-! ### Memory -/

/-- What a block of memory is for. -/
inductive Purpose where
  /-- A column of a chunk. -/
  | column
  /-- The items of a chunk. -/
  | items
  /-- The free stack of a partition. -/
  | freeIds
  /-- A value on its way from one row to another. -/
  | transit
  /-- The table of a type registry. -/
  | table
  /-- None of these. -/
  | other
  deriving DecidableEq

/-- How requests for memory are answered. The answers may be any. They stay the same during
one operation, which costs nothing: an operation asks twice for the same purpose and layout
only where the first refusal ends it and shows no more than the layout. -/
structure Memory where
  /-- Is a block with this layout to be had for this purpose? -/
  grants : Purpose → Layout → Bool

namespace Memory

/-- Obtain a block. A block without bytes needs no memory, so it is never refused. -/
def allocate (m : Memory) (purpose : Purpose) (layout : Layout) : Except StoreError Block :=
  if layout.size = 0 then .ok ⟨layout⟩
  else if m.grants purpose layout then .ok ⟨layout⟩
  else .error (.allocationFailed layout.size)

/-- Ample memory refuses requests of this many bytes, or more. -/
def ampleLimit : Nat := 1 <<< 47

/-- Memory with room for every request below the limit. -/
def ample : Memory := ⟨fun _ layout => layout.size < ampleLimit⟩

end Memory

/-- Obtain a block on its own, where memory is ample. -/
def Block.allocate (layout : Layout) : Except StoreError Block :=
  Memory.ample.allocate .other layout

/-! ### Buffers -/

/-- The kinds of word a buffer holds. -/
inductive WordWidth where
  /-- Words of four bytes. -/
  | bits32
  /-- Words of eight bytes. -/
  | bits64
  deriving DecidableEq

namespace WordWidth

/-- Size and alignment of a word. -/
def bytes : WordWidth → Nat
  | bits32 => 4
  | bits64 => 8

/-- The least signed number of the width. -/
def least : WordWidth → Int
  | bits32 => -2147483648
  | bits64 => -9223372036854775808

end WordWidth

/-- A buffer of words, all zero at first. -/
structure Buffer where
  /-- The block that the words lie in. -/
  block : Block
  /-- The words. -/
  cells : Array Int
  deriving DecidableEq

namespace Buffer

/-- Obtain the block of `length` words, without filling it. -/
def reserve (m : Memory) (purpose : Purpose) (width : WordWidth) (length : Nat) :
    Except StoreError Block := do
  m.allocate purpose (← Layout.array width.bytes width.bytes length)

/-- A buffer of `length` zeros, on its own, where memory is ample. -/
def zeroed (width : WordWidth) (length : Nat) : Except StoreError Buffer := do
  return ⟨← reserve .ample .other width length, Array.replicate length 0⟩

/-- The number of words. -/
def length (b : Buffer) : Nat := b.cells.size

/-- Overwrite one word; an index at or above the length is a fault. -/
def store (b : Buffer) (index : Nat) (value : Int) : Except Fault Buffer :=
  if index < b.length then .ok { b with cells := b.cells.setIfInBounds index value }
  else .error (.indexOutside b.length index)

/-- Store several words in turn, up to the first fault. -/
def storeAll (b : Buffer) : List (Nat × Int) → Except Fault Unit × Buffer
  | [] => (.ok (), b)
  | (index, value) :: rest =>
    match b.store index value with
    | .ok b' => storeAll b' rest
    | .error fault => (.error fault, b)

end Buffer

end ArchetypeStore

import ArchetypeStore.Allocation
import ArchetypeStore.CountingSort
import ArchetypeStore.SetHash

/-! # Dense maps

  A map from small natural keys to values. Keys and values lie densely side by side, new
  keys at the end; an array names for every key its dense position. Removing a key
  moves the last dense entry into the gap, so no operation shifts entries.

  Positions are 32-bit words, and one of these words stands for no position. So the map has
  room for one key less than there are words.
-/

namespace ArchetypeStore

/-- A map with dense entries and an array of their positions. -/
structure DenseMap (V : Type) where
  /-- For each key the word of its dense position. -/
  positions : Array UInt32
  /-- Keys in dense order. -/
  keys : Array Nat
  /-- Values, side by side with their keys. -/
  values : Array V
  deriving DecidableEq

namespace DenseMap

variable {V : Type}

/-- The word for a key that is absent. -/
def absent : UInt32 := 0xFFFFFFFF

/-- The position that a word stands for. -/
def unpack (word : UInt32) : Option Nat := if word = absent then none else some word.toNat

/-- The empty map, with positions prepared for the keys below `keyCapacity`. -/
def withCapacity (keyCapacity : Nat) : DenseMap V :=
  ⟨Array.replicate keyCapacity absent, #[], #[]⟩

/-- The empty map, where any number may be asked for as capacity. More positions than there
are layouts for are a fault. -/
def create (keyCapacity : Nat) : Except Fault (DenseMap V) :=
  if Layout.isValid (keyCapacity * WordWidth.bits32.bytes) WordWidth.bits32.bytes then
    .ok (withCapacity keyCapacity)
  else
    .error .capacityOverflow

/-- The empty map. -/
def empty : DenseMap V := withCapacity 0

instance : Inhabited (DenseMap V) := ⟨empty⟩

/-- The dense position of `key`. -/
def position? (m : DenseMap V) (key : Nat) : Option Nat := m.positions[key]?.bind unpack

/-- The value of `key`. -/
def get? (m : DenseMap V) (key : Nat) : Option V := do
  m.values[← m.position? key]?

/-- Does the map hold `key`? -/
def contains (m : DenseMap V) (key : Nat) : Bool := (m.position? key).isSome

/-- The number of keys. -/
def size (m : DenseMap V) : Nat := m.keys.size

/-- Has the map no keys? -/
def isEmpty (m : DenseMap V) : Bool := m.keys.isEmpty

/-- Keys with their values, in dense order. -/
def toList (m : DenseMap V) : List (Nat × V) := m.keys.toList.zip m.values.toList

/-- Enough positions that `key` has one. -/
def grow (positions : Array UInt32) (key : Nat) : Array UInt32 :=
  positions ++ Array.replicate (key + 1 - positions.size) absent

/-- Insert or replace. The answer is the value that was there before. -/
def insert (m : DenseMap V) (key : Nat) (value : V) : Option V × DenseMap V :=
  match m.position? key with
  | some pos => (m.values[pos]?, { m with values := m.values.setIfInBounds pos value })
  | none =>
    (none,
      { positions := (grow m.positions key).setIfInBounds key (UInt32.ofNat m.keys.size)
        keys := m.keys.push key
        values := m.values.push value })

/-- Change the value of `key` in place. The answer tells whether `key` is there. -/
def modify (m : DenseMap V) (key : Nat) (f : V → V) : Bool × DenseMap V :=
  match m.position? key with
  | some pos => (true, { m with values := m.values.modify pos f })
  | none => (false, m)

/-- Move the last entry to `pos` and drop the end. -/
def swapRemove {α : Type} (entries : Array α) (pos : Nat) : Array α :=
  match entries.back? with
  | some last => (entries.setIfInBounds pos last).pop
  | none => entries

/-- Remove `key`. The answer is its value; the last dense entry takes its place. -/
def erase (m : DenseMap V) (key : Nat) : Option V × DenseMap V :=
  match m.position? key with
  | none => (none, m)
  | some pos =>
    let positions := m.positions.setIfInBounds key absent
    let keys := swapRemove m.keys pos
    (m.values[pos]?,
      { positions :=
          match keys[pos]? with
          | some moved => positions.setIfInBounds moved (UInt32.ofNat pos)
          | none => positions
        keys
        values := swapRemove m.values pos })

/-- The keys, ascending. -/
def sortedKeys (m : DenseMap V) : List Nat :=
  match CountingSort.sort m.keys.toList m.positions.size with
  | .ok sorted => sorted
  | .error _ => m.keys.toList.mergeSort

/-- The hash of the set of keys. -/
def keysHash (m : DenseMap V) : UInt64 := setHash m.sortedKeys

end DenseMap

end ArchetypeStore

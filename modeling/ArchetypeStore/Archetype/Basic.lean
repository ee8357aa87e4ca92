import ArchetypeStore.DenseMap
import ArchetypeStore.RowStore.Basic
import ArchetypeStore.TypeRegistry

/-! # Archetypes

  An archetype is the storage of all entities with exactly one set of component types. Its
  columns are in slot order, ascending by the index of their types, and a table from type
  index to slot finds the column of a type at once.
-/

namespace ArchetypeStore

/-- The storage of one component set. -/
structure Archetype (T : Type) where
  /-- The key of the component set. -/
  key : UInt64
  /-- The component types in slot order. -/
  types : List T
  /-- The indices of the types, ascending. -/
  indices : List Nat
  /-- The slot of each type index, `none` for a type that is not in the set. -/
  slots : Array (Option Nat)
  /-- The partition of the row store with the rows. -/
  partition : Nat
  deriving DecidableEq

namespace Archetype

variable {T : Type}

/-- Write the slots of ascending indices into a table, the first being `slot`. -/
def fillSlots (table : Array (Option Nat)) (slot : Nat) : List Nat → Array (Option Nat)
  | [] => table
  | index :: rest => fillSlots (table.setIfInBounds index (some slot)) (slot + 1) rest

/-- The table from type index to slot, long enough for the greatest index. -/
def slotTable (indices : List Nat) : Array (Option Nat) :=
  fillSlots (Array.replicate ((indices.getLast?.map (· + 1)).getD 0) none) 0 indices

/-- The types of a set in slot order. -/
def layoutOf (types : DenseMap T) : List T := types.sortedKeys.filterMap types.get?

/-- The archetype of a set whose rows are in the given partition. -/
def ofTypes (key : UInt64) (types : DenseMap T) (partition : Nat) : Archetype T :=
  { key
    types := layoutOf types
    indices := types.sortedKeys
    slots := slotTable types.sortedKeys
    partition }

/-- The slot of a type index. -/
def slotOf? (a : Archetype T) (index : Nat) : Option Nat := a.slots[index]?.join

variable [DecidableEq T] [ComponentType T]

/-- The slot of a type, `none` when the type is not in the set. -/
def slot? (a : Archetype T) (registry : TypeRegistry T) (t : T) : Option Nat :=
  (registry.index? t).bind a.slotOf?

/-- Is the type in the set? -/
def contains (a : Archetype T) (registry : TypeRegistry T) (t : T) : Bool :=
  (a.slot? registry t).isSome

omit [DecidableEq T] in
/-- An archetype with its number of claimed rows, for logs. -/
def describe (a : Archetype T) (size : Nat) : String :=
  Text.record "DataComposition"
    [("key", toString a.key.toNat), ("types", Text.list (a.types.map ComponentType.describe)),
      ("size", toString size)]

end Archetype

end ArchetypeStore

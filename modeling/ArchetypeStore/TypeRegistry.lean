import ArchetypeStore.ComponentType
import ArchetypeStore.CountingSort
import ArchetypeStore.SetHash

/-! # Type registry

  Every component type gets a small positive index when it is first seen: 1, 2, 3 and so
  on, for good. Index 0 stands for an unknown type. A type is looked up in a table of
  `2 ^ width` slots; its slot is the number formed by the top `width` bits of its hash. A
  slot holds one type. When a new type meets an occupied slot the table is built again,
  at the least greater width at which every type has a slot of its own.
-/

namespace ArchetypeStore

/-- The registry of component types. -/
structure TypeRegistry (T : Type) where
  /-- Types in order of registration. -/
  types : Array T
  /-- The table has `2 ^ width` slots. -/
  width : Nat
  /-- The table is never made wider than this. -/
  maxWidth : Nat
  /-- Occupied slots, each with the index of its type. -/
  table : List (Nat × Nat)
  /-- The memory that tables are taken from. -/
  memory : Memory

namespace TypeRegistry

variable {T : Type}

/-- The least width of a table. -/
def minBits : Nat := 1

/-- The greatest width of a table. -/
def maxBits : Nat := 30

/-- Obtain the memory of a table: one address for each slot. -/
def allocateTable (m : Memory) (width : Nat) : Except StoreError Block :=
  Buffer.reserve m .table .bits64 (1 <<< width)

/-- An empty registry, where memory is ample. -/
def create (width maxWidth : Nat) : Except StoreError (TypeRegistry T) :=
  if width < minBits ∨ maxBits < width ∨ maxWidth < width ∨ maxBits < maxWidth then
    .error (.invalidConfig ("class index bits " ++ toString width ++ "..=" ++
      toString maxWidth ++ " outside " ++ toString minBits ++ "..=" ++ toString maxBits))
  else do
    let _ ← allocateTable .ample width
    return ⟨#[], width, maxWidth, [], .ample⟩

/-- From now on memory answers requests in another way. -/
def withMemory (ix : TypeRegistry T) (memory : Memory) : TypeRegistry T := { ix with memory }

/-- The number of registered types, which is also the highest index. -/
def size (ix : TypeRegistry T) : Nat := ix.types.size

/-- The type with the given index. -/
def type? (ix : TypeRegistry T) (index : Nat) : Option T :=
  match index with
  | 0 => none
  | i + 1 => ix.types[i]?

variable [ComponentType T]

/-- The slot of a type in a table of `2 ^ width` slots. -/
def slotAt (width : Nat) (t : T) : Nat := (ComponentType.hash t).toNat / (1 <<< (64 - width))

/-- The name of the type with the given index. -/
def typeName? (ix : TypeRegistry T) (index : Nat) : Option String :=
  (ix.type? index).map ComponentType.name

/-- The name shown where no type is known. -/
def unknownName : String := "<unknown>"

/-- Put types into an empty table one by one, the first under index `first`; `none` when a
slot is wanted twice. -/
def place (width : Nat) (table : List (Nat × Nat)) (first : Nat) :
    List T → Option (List (Nat × Nat))
  | [] => some table
  | t :: rest =>
    match table.lookup (slotAt width t) with
    | some _ => none
    | none => place width ((slotAt width t, first) :: table) (first + 1) rest

/-- The error for `new` when the widest table has no slot for it: the first type
registered that has the same slot there. -/
def collision (ix : TypeRegistry T) (width : Nat) (new : T) : StoreError :=
  .classIndexCollision ix.maxWidth
    (match ix.types.toList.find? fun t => slotAt width t == slotAt width new with
      | some t => ComponentType.name t
      | none => unknownName)
    (ComponentType.name new)

/-- Build a table for the registered types and `new`, trying `steps` widths behind
`width`. -/
def widen (ix : TypeRegistry T) (new : T) :
    (steps width : Nat) → Except StoreError (Nat × List (Nat × Nat))
  | 0, width => .error (ix.collision width new)
  | steps + 1, width => do
    let _ ← allocateTable ix.memory (width + 1)
    match place (width + 1) [] 1 (ix.types.toList ++ [new]) with
    | some table => return (width + 1, table)
    | none => ix.widen new steps (width + 1)

variable [DecidableEq T]

/-- The index of a type, if it is registered: the slot of the type has to hold it. -/
def index? (ix : TypeRegistry T) (t : T) : Option Nat :=
  match ix.table.lookup (slotAt ix.width t) with
  | some index => if ix.type? index = some t then some index else none
  | none => none

/-- The index of a type, which is registered if it is new. A refused registration changes
nothing. -/
def register (ix : TypeRegistry T) (t : T) : Except StoreError Nat × TypeRegistry T :=
  match ix.index? t with
  | some index => (.ok index, ix)
  | none =>
    match ix.table.lookup (slotAt ix.width t) with
    | none =>
      (.ok (ix.size + 1),
        { ix with
          types := ix.types.push t
          table := (slotAt ix.width t, ix.size + 1) :: ix.table })
    | some _ =>
      -- Another type has the slot.
      match ix.widen t (ix.maxWidth - ix.width) ix.width with
      | .error e => (.error e, ix)
      | .ok (width, table) =>
        (.ok (ix.size + 1), { ix with types := ix.types.push t, width, table })

/-- Register types in turn. The first refusal ends it; earlier types stay registered. -/
def registerAll (ix : TypeRegistry T) : List T → Except StoreError (List Nat) × TypeRegistry T
  | [] => (.ok [], ix)
  | t :: rest =>
    match ix.register t with
    | (.error e, ix) => (.error e, ix)
    | (.ok index, ix) =>
      match ix.registerAll rest with
      | (.error e, ix) => (.error e, ix)
      | (.ok indices, ix) => (.ok (index :: indices), ix)

/-- A type that was listed twice is reported by name. -/
def nameDuplicate (ix : TypeRegistry T) : StoreError → StoreError
  | .duplicateValue index =>
    .duplicateComponentType ((ix.typeName? index).getD unknownName)
  | e => e

/-- The hash of a set of types, which does not depend on their order. New types are
registered; a type listed twice is an error. -/
def hashOf (ix : TypeRegistry T) (ts : List T) : Except StoreError UInt64 × TypeRegistry T :=
  match ix.registerAll ts with
  | (.error e, ix) => (.error e, ix)
  | (.ok indices, ix) =>
    match CountingSort.sort indices (ix.size + 1) with
    | .error e => (.error (ix.nameDuplicate e), ix)
    | .ok sorted => (.ok (setHash sorted), ix)

end TypeRegistry

end ArchetypeStore

import ArchetypeStore.Text.Record

/-! # Errors of the store

  `StoreError` lists every cause for which an operation of the store is refused. An
  operation that is refused says so in its answer; the state it leaves is stated with
  the operation. `Fault` lists the calls that have no answer at all because an argument
  lies outside the domain of the operation.
-/

namespace ArchetypeStore

/-! ### Causes -/

/-- Why the store refused an operation. -/
inductive StoreError where
  /-- One component type was listed twice for one entity. -/
  | duplicateComponentType (name : String)
  /-- A component type is not part of the archetype or entity. -/
  | componentNotFound (name : String)
  /-- The handle or slot id is stale, or was never issued. -/
  | entityNotFound
  /-- Every chunk number has been handed out. -/
  | chunkCapacityExhausted (maxChunks : Nat)
  /-- Memory of this many bytes could not be obtained. -/
  | allocationFailed (bytes : Nat)
  /-- Two types still share a table slot at the widest table allowed. -/
  | classIndexCollision (hashBits : Nat) (first second : String)
  /-- Two different component sets have the same archetype key. -/
  | archetypeHashCollision (key : UInt64)
  /-- A value, or an occupied slot, was met a second time. -/
  | duplicateValue (value : Nat)
  /-- A value to sort is not below the declared capacity. -/
  | valueOutOfRange (value capacity : Nat)
  /-- A setting or a memory layout was rejected. -/
  | invalidConfig (text : String)
  deriving DecidableEq

namespace StoreError

/-- The name of the cause. -/
def kind : StoreError → String
  | duplicateComponentType _ => "DuplicateComponentType"
  | componentNotFound _ => "ComponentNotFound"
  | entityNotFound => "EntityNotFound"
  | chunkCapacityExhausted _ => "ChunkCapacityExhausted"
  | allocationFailed _ => "AllocationFailed"
  | classIndexCollision .. => "ClassIndexCollision"
  | archetypeHashCollision _ => "ArchetypeHashCollision"
  | duplicateValue _ => "DuplicateValue"
  | valueOutOfRange .. => "ValueOutOfRange"
  | invalidConfig _ => "InvalidConfig"

/-- The sentence shown to the user. -/
def message : StoreError → String
  | duplicateComponentType name => "Duplicate component type: " ++ name
  | componentNotFound name => "Component not found: " ++ name
  | entityNotFound => "Entity not found"
  | chunkCapacityExhausted maxChunks =>
    "Chunk capacity exhausted: all " ++ toString maxChunks ++ " chunks are in use"
  | allocationFailed bytes => "Failed to allocate " ++ toString bytes ++ " bytes"
  | classIndexCollision hashBits first second =>
    "Class index collision between " ++ first ++ " and " ++ second ++
      " at maximum width of " ++ toString hashBits ++ " bits"
  | archetypeHashCollision key =>
    "Archetype key " ++ Text.hex key.toNat ++ " maps to two different component sets"
  | duplicateValue value => "Duplicate value: " ++ toString value
  | valueOutOfRange value capacity =>
    "Value " ++ toString value ++ " is outside the sort capacity " ++ toString capacity
  | invalidConfig text => "Invalid configuration: " ++ text

/-- A fatal error leaves the store unable to grow; trying again cannot help. -/
def isFatal : StoreError → Bool
  | chunkCapacityExhausted _ | allocationFailed _ => true
  | classIndexCollision .. | archetypeHashCollision _ => true
  | _ => false

/-- The cause with its data, for logs. -/
def describe (e : StoreError) : String :=
  match e with
  | duplicateComponentType name | componentNotFound name =>
    Text.applied e.kind [Text.quote name]
  | entityNotFound => e.kind
  | chunkCapacityExhausted maxChunks =>
    Text.record e.kind [("max_chunks", toString maxChunks)]
  | allocationFailed bytes => Text.record e.kind [("bytes", toString bytes)]
  | classIndexCollision hashBits first second =>
    Text.record e.kind [("hash_bits", toString hashBits), ("first", Text.quote first),
      ("second", Text.quote second)]
  | archetypeHashCollision key => Text.record e.kind [("key", toString key.toNat)]
  | duplicateValue value => Text.applied e.kind [toString value]
  | valueOutOfRange value capacity =>
    Text.record e.kind [("value", toString value), ("capacity", toString capacity)]
  | invalidConfig text => Text.applied e.kind [Text.quote text]

end StoreError

/-! ### Calls outside the domain -/

/-- A call whose argument lies outside the domain of the operation. -/
inductive Fault where
  /-- A bit at or above the capacity of its set. -/
  | bitOutside (bit capacity : Nat)
  /-- An index at or above the length of its buffer. -/
  | indexOutside (length index : Nat)
  /-- A capacity of more bytes than there are layouts for. -/
  | capacityOverflow
  deriving DecidableEq

/-- The sentence shown when such a call stops. -/
def Fault.message : Fault → String
  | bitOutside bit capacity =>
    "bit " ++ toString bit ++ " outside capacity " ++ toString capacity
  | indexOutside length index =>
    "index out of bounds: the len is " ++ toString length ++
      " but the index is " ++ toString index
  | capacityOverflow => "capacity overflow"

end ArchetypeStore

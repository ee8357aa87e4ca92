import ArchetypeStore.Allocation

/-! # Component types

  A component is a value of some component type attached to an entity. The store knows a
  type by its name for messages, its layout for memory and its hash for the registry.
  Two types are the same when they are equal; nothing else is compared.
-/

namespace ArchetypeStore

/-! ### Types -/

/-- What the store knows of the component types `T`. -/
class ComponentType (T : Type) where
  /-- The name shown in messages. -/
  name : T → String
  /-- Size of a value in bytes. -/
  size : T → Nat
  /-- Alignment of a value in bytes. -/
  align : T → Nat
  /-- The hash that chooses the slot in the type registry. -/
  hash : T → UInt64

namespace ComponentType

variable {T : Type} [ComponentType T]

/-- A type with its layout, for logs. -/
def describe (t : T) : String :=
  Text.record "ComponentInfo" [("name", Text.quote (name t)), ("size", toString (size t)),
    ("align", toString (align t))]

/-- Memory for one value between two rows. -/
def allocateOne (m : Memory) (t : T) : Except StoreError Block :=
  m.allocate .transit ⟨size t, align t⟩

/-- Memory for the column of one chunk: `capacity` values side by side. -/
def allocateColumn (m : Memory) (t : T) (capacity : Nat) : Except StoreError Block :=
  if size t * capacity < 1 <<< 64 then do
    m.allocate .column (← Layout.ofSizeAlign (size t * capacity) (align t))
  else
    .error (.allocationFailed ((1 <<< 64) - 1))

end ComponentType

/-! ### Bundles -/

/-- Component values handed in together, each with its type. -/
abbrev Bundle (T V : Type) := List (T × V)

namespace Bundle

variable {T V : Type}

/-- The types in the order listed. -/
def types (b : Bundle T V) : List T := b.map (·.1)

/-- The values in the order listed. -/
def values (b : Bundle T V) : List V := b.map (·.2)

/-- Offer the bundle to `sink`. A sink that accepts has taken every value over; when it
refuses, the bundle drops them all. The second part of the answer is what was dropped. -/
def offer {α : Type} (b : Bundle T V) (sink : Bundle T V → Except StoreError α) :
    Except StoreError α × List V :=
  match sink b with
  | .ok a => (.ok a, [])
  | .error e => (.error e, b.values)

end Bundle

end ArchetypeStore

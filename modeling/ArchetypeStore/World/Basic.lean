import ArchetypeStore.Archetype.Reorder
import ArchetypeStore.Catalog.Ending
import ArchetypeStore.Catalog.Find
import ArchetypeStore.View.Cursor

/-! # Worlds

  A world holds entities with components. Each entity is an item of the row store, and its
  home is the archetype of its component set. The id word of the item names its row; the
  detached flag says that the entity was destroyed, the reserved flag that it is on its
  way to another archetype.

  The world keeps account of every component value that it drops, so that values handed in,
  stored, given back and dropped can be compared.
-/

namespace ArchetypeStore

/-! ### Types -/

/-- A handle to an entity. -/
structure Entity where
  /-- The number of the world that made it. -/
  world : Nat
  /-- The item in that world. -/
  item : Nat
  deriving DecidableEq

/-- A world. -/
structure World (T V : Type) where
  /-- The number of the world. -/
  number : Nat
  /-- The settings it was made with. -/
  settings : Settings
  /-- Component sets with their storage. -/
  catalog : Catalog T V
  /-- For bundle types used before, the key of their component set. -/
  bundles : List (List T × UInt64)
  /-- The key of the archetype that each item is at home in. -/
  homes : Array UInt64
  /-- Component values that the world has dropped, last first. -/
  dropped : List V

namespace World

variable {T V : Type}

/-- A world without entities. -/
def create (number : Nat) (settings : Settings) : Except StoreError (World T V) := do
  return ⟨number, settings, ← Catalog.create settings, [], #[], []⟩

/-! ### Reading -/

/-- The rows of the world. -/
def store (w : World T V) : RowStore T V := w.catalog.store

/-- The indices of the component types. -/
def registry (w : World T V) : TypeRegistry T := w.catalog.registry

/-- The id word of an entity of this world. -/
def idOf (w : World T V) (e : Entity) : SlotId := w.store.idOf e.item

/-- The archetype that an entity of this world is at home in. -/
def home? (w : World T V) (e : Entity) : Option (Archetype T) :=
  w.homes[e.item]?.bind w.catalog.archetype?

/-- Is the entity neither destroyed nor without a home? -/
def isAlive (w : World T V) (e : Entity) : Bool :=
  !(w.idOf e).isDetached && (w.home? e).isSome

/-- Claimed rows of all archetypes. -/
def entityCount (w : World T V) : Nat :=
  (w.catalog.archetypes.map w.catalog.sizeOf).foldr (· + ·) 0

/-- The number of archetypes. -/
def archetypeCount (w : World T V) : Nat := w.catalog.archetypes.length

/-- Is the component type in the set of the entity? -/
def has [DecidableEq T] [ComponentType T] (w : World T V) (e : Entity) (t : T) : Bool :=
  w.isAlive e && (w.home? e).any (·.contains w.registry t)

/-- The view of all entities that have every component asked for. -/
def select [DecidableEq T] [ComponentType T] (w : World T V) (query : Shape T) : View T :=
  .ofArchetypes w.registry query (w.catalog.findArchetypes query.leaves)

/-! ### Writing -/

/-- Replace the row store. -/
def withStore (w : World T V) (store : RowStore T V) : World T V :=
  { w with catalog := { w.catalog with store } }

/-- From now on memory answers requests in another way. -/
def withMemory (w : World T V) (memory : Memory) : World T V :=
  { w with catalog := w.catalog.withMemory memory }

/-- Drop component values. -/
def drop (w : World T V) (values : List V) : World T V :=
  { w with dropped := values ++ w.dropped }

/-- Give an item a new home. -/
def setHome (w : World T V) (item : Nat) (key : UInt64) : World T V :=
  { w with homes := w.homes.setIfInBounds item key }

/-- Put a flag on the id word of an entity. -/
def flag (w : World T V) (e : Entity) (f : SlotId → SlotId) : World T V :=
  w.withStore (w.store.setId e.item (f (w.idOf e)))

/-- End the world. Nothing else holds its archetypes, such as a selection: the values that
are stored are dropped, unless circles of links keep them. The id words of its entities
stay. -/
def close (w : World T V) : World T V :=
  { w.drop w.catalog.close.1 with catalog := w.catalog.close.2, bundles := [] }

/-! ### Showing -/

/-- The world on one line, for logs. -/
def describe (w : World T V) : String :=
  Text.record "World"
    [("entities", toString w.entityCount), ("compositions", toString w.archetypeCount),
      ("config", w.settings.describe)]

/-- An entity on one line, for logs. -/
def describeEntity (w : World T V) (e : Entity) : String :=
  Text.record "Entity"
    [("id", toString (w.idOf e).place.toNat), ("detached", toString (w.idOf e).isDetached),
      ("reserved", toString (w.idOf e).isReserved)]

/-- The id word of an item on one line, for logs. -/
def describeRecord (w : World T V) (item : Nat) : String :=
  Text.record "EntityRecord" [("id", toString (w.store.idOf item).toNat)]

end World

end ArchetypeStore

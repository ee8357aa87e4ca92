import ArchetypeStore.World.Lifecycle

/-! # Adding and removing components

  An entity that gains or loses a component type moves to the archetype of its new set.
  The target is made ready first; then the components leave their row, and the entity is
  in transit until they are in a row of the target. If the target has no row for them the
  entity is destroyed.
-/

namespace ArchetypeStore.World

variable {T V : Type}

/-- Memory for values that are between two rows. -/
def allocateAll [ComponentType T] (m : Memory) : List T → Except StoreError Unit
  | [] => .ok ()
  | t :: rest => do
    let _ ← ComponentType.allocateOne m t
    allocateAll m rest

/-- Take the components of an entity out of its row. The entity is in transit then. -/
def moveOut [ComponentType T] (w : World T V) (e : Entity) (a : Archetype T) (id : SlotId) :
    Except StoreError (Bundle T V) × World T V :=
  match w.store.evict a.partition id fun v =>
    if holds e v then do
      allocateAll w.store.memory a.types
      if w.isAtRest e v then .ok () else .error .entityNotFound
    else .error .entityNotFound with
  | (.error error, store) => (.error error, w.withStore store)
  | (.ok evicted, store) =>
    (.ok (a.types.zip evicted.values), (w.withStore store).flag e SlotId.reserve)

variable [DecidableEq T] [ComponentType T]

/-- Put the components that an entity in transit carries into a row of the target, with
those it gains. If that is refused the entity is destroyed and drops what it carried. -/
def finishMove (w : World T V) (e : Entity) (target : Archetype T)
    (carried gained : Bundle T V) : Except StoreError Unit × World T V :=
  match w.moveIn target e.item (carried ++ gained) with
  | (.ok _, w) => (.ok (), w)
  | (.error error, w) => (.error error, (w.flag e SlotId.detach).drop carried.values)

/-- Move an entity to the archetype that also has the type `t`. -/
def gain (w : World T V) (e : Entity) (a : Archetype T) (id : SlotId) (t : T) (value : V) :
    Except StoreError Unit × World T V :=
  match w.catalog.ensure (a.types ++ [t]) with
  | (.error error, catalog) => (.error error, { w with catalog })
  | (.ok target, catalog) =>
    match { w with catalog }.moveOut e a id with
    | (.error error, w) => (.error error, w)
    | (.ok carried, w) => w.finishMove e target carried [(t, value)]

/-- Give an entity a component. One that it has is replaced in place, and the old value is
dropped. A value that is refused is dropped as well. -/
def add (w : World T V) (e : Entity) (t : T) (value : V) :
    Except StoreError Unit × World T V :=
  match w.access e fun w a id =>
    match a.slot? w.registry t with
    | none => w.gain e a id t value
    | some slot =>
      match w.changeAt e a id slot fun _ => value with
      | (.error error, w) => (.error error, w)
      | (.ok old, w) => (.ok (), w.drop [old]) with
  | (.ok (), w) => (.ok (), w)
  | (.error error, w) => (.error error, w.drop [value])

/-- Move an entity to the archetype without the type `t`. The answer is its value of that
type. -/
def lose (w : World T V) (e : Entity) (a : Archetype T) (id : SlotId) (t : T) :
    Except StoreError V × World T V :=
  match w.catalog.ensure (a.types.filter (· ≠ t)) with
  | (.error error, catalog) => (.error error, { w with catalog })
  | (.ok target, catalog) =>
    match { w with catalog }.moveOut e a id with
    | (.error error, w) => (.error error, w)
    | (.ok carried, w) =>
      match carried.lookup t with
      | none =>
        -- The archetype had a slot for the type, so this does not happen.
        (.error (.componentNotFound (ComponentType.name t)), w.drop (Bundle.values carried))
      | some value =>
        match w.finishMove e target (carried.eraseP (·.1 == t)) [] with
        | (.error error, w) => (.error error, w.drop [value])
        | (.ok (), w) => (.ok value, w)

/-- Take a component off an entity. The answer is its value, which now belongs to the
caller. -/
def remove (w : World T V) (e : Entity) (t : T) : Except StoreError V × World T V :=
  w.access e fun w a id =>
    match w.slotIn a t with
    | .error error => (.error error, w)
    | .ok _ => w.lose e a id t

end ArchetypeStore.World

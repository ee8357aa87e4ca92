import ArchetypeStore.World.Basic

/-! # Access to one entity

  An operation on an entity looks up where the entity is and then runs its body there. If
  the entity is on its way to another archetype, the operation looks again. If the row no
  longer holds the entity when the body runs, the body answers that the entity was not
  found, and the operation looks again as well.
-/

namespace ArchetypeStore.World

variable {T V α : Type}

/-- Where an operation finds an entity. -/
inductive Place (T : Type) where
  /-- Destroyed, of another world, or without a home. -/
  | gone
  /-- On its way to another archetype. -/
  | inTransit
  /-- In the row of an archetype with this id. -/
  | found (archetype : Archetype T) (id : SlotId)

/-- Look up an entity. -/
def locate (w : World T V) (e : Entity) : Place T :=
  if e.world ≠ w.number then .gone
  else if (w.idOf e).isDetached then .gone
  else if (w.idOf e).isReserved then .inTransit
  else
    match w.home? e with
    | none => .gone
    | some a => .found a (w.idOf e)

/-- The body of an operation, run on the archetype and id of an entity. -/
abbrev Body (T V α : Type) :=
  World T V → Archetype T → SlotId → Except StoreError α × World T V

/-- Look up and run the body, at most `rounds` times; `none` when the entity could not be
reached in that many rounds. The number in the answer counts how often the body ran. -/
def tryAccess (w : World T V) (e : Entity) (body : Body T V α) :
    (rounds : Nat) → Option (Nat × Except StoreError α × World T V)
  | 0 => none
  | rounds + 1 =>
    match w.locate e with
    | .gone => some (0, .error .entityNotFound, w)
    | .inTransit => w.tryAccess e body rounds
    | .found a id =>
      match body w a id with
      | (.error .entityNotFound, w) =>
        -- The entity left the row after it was looked up.
        (w.tryAccess e body rounds).map fun (runs, answer) => (runs + 1, answer)
      | answer => some (1, answer)

/-- Rounds after which an operation gives up. One is enough as long as no entity stays in
transit between operations. -/
def patience : Nat := 2

/-- Run the body of an operation on an entity. -/
def access (w : World T V) (e : Entity) (body : Body T V α) :
    Except StoreError α × World T V :=
  match w.tryAccess e body patience with
  | none => (.error .entityNotFound, w)
  | some (_, answer) => answer

/-- Does the row hold the entity? -/
def holds (e : Entity) (v : RowView V) : Bool := v.cell.any (·.item == e.item)

variable [DecidableEq T] [ComponentType T]

/-- The slot of a component type in an archetype. -/
def slotIn (w : World T V) (a : Archetype T) (t : T) : Except StoreError Nat :=
  match a.slot? w.registry t with
  | none => .error (.componentNotFound (ComponentType.name t))
  | some slot => .ok slot

omit [DecidableEq T] [ComponentType T] in
/-- The values of an entity in its row. -/
def valuesAt (w : World T V) (e : Entity) (a : Archetype T) (id : SlotId) :
    Except StoreError (RowView V × List V) :=
  match w.store.row a.partition id with
  | .error e => .error e
  | .ok v =>
    match v.cell with
    | none => .error .entityNotFound
    | some cell => if cell.item = e.item then .ok (v, cell.values) else .error .entityNotFound

omit [DecidableEq T] [ComponentType T] in
/-- The value in one slot of an entity. -/
def valueAt (w : World T V) (e : Entity) (a : Archetype T) (id : SlotId) (slot : Nat) :
    Except StoreError V :=
  match w.valuesAt e a id with
  | .error e => .error e
  | .ok (_, values) =>
    match values[slot]? with
    | none => .error .entityNotFound
    | some value => .ok value

omit [DecidableEq T] [ComponentType T] in
/-- Change the value in one slot of an entity. The answer is the value before. -/
def changeAt (w : World T V) (e : Entity) (a : Archetype T) (id : SlotId) (slot : Nat)
    (f : V → V) : Except StoreError V × World T V :=
  match w.valuesAt e a id with
  | .error e => (.error e, w)
  | .ok (v, values) =>
    match values[slot]? with
    | none => (.error .entityNotFound, w)
    | some value =>
      (.ok value,
        w.withStore
          (w.store.setCell v.chunk v.row (some ⟨e.item, values.set slot (f value)⟩)))

/-! ### Single components -/

/-- Read one component. -/
def read? (w : World T V) (e : Entity) (t : T) : Option V :=
  match (w.access e fun w a id =>
    match w.slotIn a t with
    | .error e => (.error e, w)
    | .ok slot => (w.valueAt e a id slot, w)).1 with
  | .ok value => some value
  | .error _ => none

/-- Change one component in place. The answer is its value before. -/
def update (w : World T V) (e : Entity) (t : T) (f : V → V) : Option V × World T V :=
  match w.access e fun w a id =>
    match w.slotIn a t with
    | .error e => (.error e, w)
    | .ok slot => w.changeAt e a id slot f with
  | (.ok value, w) => (some value, w)
  | (.error _, w) => (none, w)

end ArchetypeStore.World

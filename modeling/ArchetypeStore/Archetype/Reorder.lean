import ArchetypeStore.Archetype.Basic

/-! # Reordering components

  Components that are handed in together come in any order. They are brought into slot
  order in place: each position keeps swapping its component to the slot of that component
  until it holds its own. A component whose slot already holds its own is a second one of
  the same type. When the walk stops with an error, the components stay where it left them.
-/

namespace ArchetypeStore.Archetype

variable {T : Type} [DecidableEq T] [ComponentType T]

/-! ### Slots -/

/-- Components with their slots; the first type that the archetype lacks is an error. -/
def withSlots {α : Type} (a : Archetype T) (registry : TypeRegistry T) :
    List (T × α) → Except StoreError (List (Nat × (T × α)))
  | [] => .ok []
  | component :: rest =>
    match a.slot? registry component.1 with
    | none => .error (.componentNotFound (ComponentType.name component.1))
    | some slot =>
      match a.withSlots registry rest with
      | .error e => .error e
      | .ok rest => .ok ((slot, component) :: rest)

/-- The first component whose slot an earlier one has. -/
def repeated? {α : Type} (seen : List Nat) : List (Nat × (T × α)) → Option T
  | [] => none
  | (slot, component) :: rest =>
    if slot ∈ seen then some component.1 else repeated? (slot :: seen) rest

/-- Why a list of the wrong length does not fit: a type listed twice, or else the type of
the lowest slot that is missing. -/
def mismatch {α : Type} (a : Archetype T) (components : List (Nat × (T × α))) : StoreError :=
  match repeated? [] components with
  | some t => .duplicateComponentType (ComponentType.name t)
  | none =>
    .componentNotFound
      (match (List.range a.types.length).find? fun slot => slot ∉ components.map (·.1) with
        | some slot => (a.types[slot]?.map ComponentType.name).getD TypeRegistry.unknownName
        | none => TypeRegistry.unknownName)

/-! ### The walk -/

omit [DecidableEq T] in
/-- Swap at position `i` until it holds its own component, at most `swaps` times. -/
def settleAt {α : Type} (components : Array (Nat × (T × α))) (i : Nat) :
    (swaps : Nat) → Except StoreError Unit × Array (Nat × (T × α))
  | 0 => (.ok (), components)
  | swaps + 1 =>
    match components[i]? with
    | none => (.ok (), components)
    | some (slot, component) =>
      if slot = i then (.ok (), components)
      -- A slot that holds its own component has no room for a second one.
      else if components[slot]?.map (·.1) = some slot then
        (.error (.duplicateComponentType (ComponentType.name component.1)), components)
      else settleAt (components.swapIfInBounds i slot) i swaps

omit [DecidableEq T] in
/-- Settle `count` positions from position `i` on. -/
def settleFrom {α : Type} (components : Array (Nat × (T × α))) (i : Nat) :
    (count : Nat) → Except StoreError Unit × Array (Nat × (T × α))
  | 0 => (.ok (), components)
  | count + 1 =>
    match settleAt components i components.size with
    | (.error e, components) => (.error e, components)
    | (.ok (), components) => settleFrom components (i + 1) count

/-- Bring components into slot order. The list that comes back is what the walk left. -/
def reorder {α : Type} (a : Archetype T) (registry : TypeRegistry T)
    (components : List (T × α)) : Except StoreError Unit × List (T × α) :=
  match a.withSlots registry components with
  | .error e => (.error e, components)
  | .ok slotted =>
    if components.length = a.types.length then
      match settleFrom slotted.toArray 0 slotted.length with
      | (result, settled) => (result, settled.toList.map (·.2))
    else (.error (a.mismatch slotted), components)

end ArchetypeStore.Archetype

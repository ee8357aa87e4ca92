import ArchetypeStore.World.Migration

/-! # Several worlds

  Handles of entities may be shown to any world, but each belongs to the one that made it. A
  world that has ended keeps its number, and the id words of its entities stay readable.

  Such a handle holds its entity only weakly. What holds archetypes strongly, a selection or
  the handle of an archetype, is not kept past the call that hands it out: none outlives its
  world, so that the archetypes end with the world, and with them the homes of its entities.
-/

namespace ArchetypeStore

/-- Worlds by number. -/
structure Universe (T V : Type) where
  /-- The worlds, ended ones included. -/
  worlds : Array (World T V)

namespace Universe

variable {T V : Type}

/-- The universe without worlds. -/
def empty : Universe T V := ⟨#[]⟩

/-- Begin a world. The answer is its number. -/
def begin (u : Universe T V) (settings : Settings) : Except StoreError Nat × Universe T V :=
  match World.create u.worlds.size settings with
  | .error e => (.error e, u)
  | .ok w => (.ok u.worlds.size, ⟨u.worlds.push w⟩)

/-- Replace a world. -/
def set (u : Universe T V) (w : World T V) : Universe T V :=
  ⟨u.worlds.setIfInBounds w.number w⟩

/-- End a world. No selection is held any more, so its archetypes end with it. -/
def close (u : Universe T V) (number : Nat) : Universe T V :=
  ⟨u.worlds.modify number World.close⟩

/-- The world of an entity. -/
def worldOf? (u : Universe T V) (e : Entity) : Option (World T V) := u.worlds[e.world]?

/-- Is the component type in the set of the entity, whichever its world? -/
def has [DecidableEq T] [ComponentType T] (u : Universe T V) (e : Entity) (t : T) : Bool :=
  (u.worldOf? e).any (·.has e t)

/-- All values that any world has dropped. -/
def dropped (u : Universe T V) : List V := u.worlds.toList.flatMap (·.dropped)

end Universe

end ArchetypeStore

import ArchetypeStore.Archetype.Basic
import ArchetypeStore.View.Shape

/-! # Views

  A view is a selection of archetypes together with the slots of the components that a
  query asks for. Its hits are the items in the published rows of these archetypes, in
  order of archetype, chunk and row, each with its components in the shape of the query.
-/

namespace ArchetypeStore

/-- One archetype of a view. -/
structure ViewPart (T : Type) where
  /-- The archetype. -/
  archetype : Archetype T
  /-- The slots of the components asked for. -/
  slots : Shape Nat

/-- The archetypes that a query selects. -/
structure View (T : Type) where
  /-- The archetypes with their slots. -/
  parts : List (ViewPart T)

/-- An item that a view shows. -/
structure Hit (V : Type) where
  /-- The key of its archetype. -/
  key : UInt64
  /-- The item. -/
  item : Nat
  /-- The components asked for. -/
  components : Shape V

namespace View

variable {T V : Type}

/-- The view that shows nothing. -/
def empty : View T := ⟨[]⟩

/-- The view of those archetypes that have every type asked for. -/
def ofArchetypes [DecidableEq T] [ComponentType T] (registry : TypeRegistry T)
    (query : Shape T) (archetypes : List (Archetype T)) : View T :=
  ⟨archetypes.filterMap fun a =>
    (query.traverse? (a.slot? registry)).map fun slots => ⟨a, slots⟩⟩

/-- The archetypes that are shown. -/
def archetypes (v : View T) : List (Archetype T) := v.parts.map (·.archetype)

/-- The chunks that are walked, one task each, with the part they belong to. -/
def tasks (v : View T) (s : RowStore T V) : List (ViewPart T × Nat) :=
  v.parts.flatMap fun part => (s.chain part.archetype.partition).map fun chunk => (part, chunk)

/-- The claimed rows of all chunks that are walked. -/
def size (v : View T) (s : RowStore T V) : Nat :=
  ((v.tasks s).map fun (_, chunk) => s.fill chunk).foldr (· + ·) 0

/-- Has no chunk a claimed row? -/
def isEmpty (v : View T) (s : RowStore T V) : Bool := v.size s == 0

/-- The hit that a published row makes. -/
def hit? (part : ViewPart T) (cell : Cell V) : Option (Hit V) :=
  (part.slots.traverse? fun slot => cell.values[slot]?).map fun components =>
    ⟨part.archetype.key, cell.item, components⟩

/-- The hits in one chunk. -/
def taskHits (s : RowStore T V) (task : ViewPart T × Nat) : List (Hit V) :=
  match s.chunks[task.2]? with
  | none => []
  | some c => c.published.filterMap fun (_, cell) => hit? task.1 cell

/-- All hits, chunk after chunk. -/
def hits (v : View T) (s : RowStore T V) : List (Hit V) :=
  (v.tasks s).flatMap (taskHits s)

end View

/-- A hit, for logs. -/
def Hit.describe {V : Type} (id : SlotId) (describeValue : V → String) (h : Hit V) : String :=
  Text.record "MatchRecord"
    [("id", toString id.toNat), ("components", h.components.describe describeValue)]

end ArchetypeStore

import ArchetypeStore.Archetype.Basic

/-! # Nodes of the catalog

  The catalog has one node for each component set that was asked for. A node knows its
  set, the larger sets it is linked to, and its archetype once that was needed.
-/

namespace ArchetypeStore

/-- The node of one component set. -/
structure SetNode (T : Type) where
  /-- The key of the set. -/
  key : UInt64
  /-- The types of the set by index, in the order in which the set was first asked for. -/
  types : DenseMap T
  /-- Keys of the nodes linked to, each once. -/
  links : List UInt64
  /-- The archetype, once it was needed. -/
  archetype : Option (Archetype T)
  deriving DecidableEq

namespace SetNode

variable {T : Type}

/-- A node without links and archetype. -/
def create (key : UInt64) (types : DenseMap T) : SetNode T := ⟨key, types, [], none⟩

/-- Has the node exactly these types? -/
def hasTypes (n : SetNode T) (types : DenseMap T) : Bool :=
  n.types.size == types.size && types.keys.all n.types.contains

/-- Is the node linked to the node with this key? -/
def isLinked (n : SetNode T) (key : UInt64) : Bool := n.links.contains key

/-- Link the node to the node with this key. -/
def link (n : SetNode T) (key : UInt64) : SetNode T :=
  if n.isLinked key then n else { n with links := n.links ++ [key] }

/-- A node, for logs. -/
def describe [ComponentType T] (n : SetNode T) : String :=
  Text.record "Node"
    [("key", toString n.key.toNat),
      ("types", Text.list (n.types.values.toList.map ComponentType.describe)),
      ("links", toString n.links.length)]

end SetNode

/-- Nodes by key. -/
structure NodeTable (T : Type) where
  /-- The nodes, in the order in which they were made. -/
  nodes : List (SetNode T)
  deriving DecidableEq

namespace NodeTable

variable {T : Type}

/-- The table without nodes. -/
def empty : NodeTable T := ⟨[]⟩

/-- The number of nodes. -/
def size (table : NodeTable T) : Nat := table.nodes.length

/-- Has the table no nodes? -/
def isEmpty (table : NodeTable T) : Bool := table.nodes.isEmpty

/-- The node with a key. -/
def get? (table : NodeTable T) (key : UInt64) : Option (SetNode T) :=
  table.nodes.find? (·.key == key)

/-- Change the node with a key. -/
def modify (table : NodeTable T) (key : UInt64) (f : SetNode T → SetNode T) : NodeTable T :=
  ⟨table.nodes.map fun n => if n.key == key then f n else n⟩

/-- Is there a node with this key and these types? A node with the key and other types is
an error. -/
def has (table : NodeTable T) (key : UInt64) (types : DenseMap T) : Except StoreError Bool :=
  match table.get? key with
  | none => .ok false
  | some n => if n.hasTypes types then .ok true else .error (.archetypeHashCollision key)

/-- Make the node for a set unless it is there. -/
def ensure (table : NodeTable T) (key : UInt64) (types : DenseMap T) :
    Except StoreError Unit × NodeTable T :=
  match table.has key types with
  | .error e => (.error e, table)
  | .ok true => (.ok (), table)
  | .ok false => (.ok (), ⟨table.nodes ++ [SetNode.create key types]⟩)

/-- Make the nodes of single types, in turn, unless they are there. -/
def ensureSingles (table : NodeTable T) :
    List (Nat × T) → Except StoreError Unit × NodeTable T
  | [] => (.ok (), table)
  | (index, t) :: rest =>
    match table.ensure (UInt64.ofNat index)
        ((DenseMap.withCapacity (index + 1)).insert index t).2 with
    | (.error e, table) => (.error e, table)
    | (.ok (), table) => table.ensureSingles rest

/-- Link the nodes of single types to the node with a key. -/
def linkSingles (table : NodeTable T) (key : UInt64) (indices : List Nat) : NodeTable T :=
  indices.foldl (fun table index => table.modify (UInt64.ofNat index) (·.link key)) table

end NodeTable

end ArchetypeStore

import ArchetypeStore.Catalog.Node
import ArchetypeStore.RowStore.Issue
import ArchetypeStore.Settings.Basic

/-! # Catalog

  The catalog finds the node and the archetype of a component set, whatever the order in
  which its types are listed. The set without types has key 0. A single type has its index
  as key. The key of a larger set is the hash of its indices with the highest bit set, so
  keys of the three kinds never meet. Two larger sets may have the same hash; the second
  one is then refused.

  The node of every type in a larger set is linked to the node of that set.
-/

namespace ArchetypeStore

/-! ### Keys -/

/-- The key of the set without types. -/
def rootKey : UInt64 := 0

/-- The key of a set of two or more types with the given hash. -/
def multiKey (hash : UInt64) : UInt64 := UInt64.ofNat ((1 <<< 63) + hash.toNat % (1 <<< 63))

namespace TypeRegistry

variable {T : Type} [DecidableEq T] [ComponentType T]

/-- Put types into a map by index; a type listed twice is an error. -/
def collect (ix : TypeRegistry T) (types : DenseMap T) :
    List T → Except StoreError (DenseMap T) × TypeRegistry T
  | [] => (.ok types, ix)
  | t :: rest =>
    match ix.register t with
    | (.error e, ix) => (.error e, ix)
    | (.ok index, ix) =>
      match types.insert index t with
      | (some _, _) => (.error (.duplicateComponentType (ComponentType.name t)), ix)
      | (none, types) => ix.collect types rest

/-- The key of a set with at least one type, and its types by index. New types are
registered. -/
def keyOf (ix : TypeRegistry T) (ts : List T) :
    Except StoreError (UInt64 × DenseMap T) × TypeRegistry T :=
  match ts with
  | [t] =>
    match ix.register t with
    | (.error e, ix') => (.error e, ix')
    | (.ok index, ix') =>
      (.ok (UInt64.ofNat index, ((DenseMap.withCapacity (ix.size + 1)).insert index t).2), ix')
  | ts =>
    match ix.hashOf ts with
    | (.error e, ix') => (.error e, ix')
    | (.ok hash, ix') =>
      match ix'.collect (DenseMap.withCapacity (ix.size + 1)) ts with
      | (.error e, ix'') => (.error e, ix'')
      | (.ok types, ix'') => (.ok (multiKey hash, types), ix'')

end TypeRegistry

/-! ### Catalog -/

/-- All component sets with their storage. -/
structure Catalog (T V : Type) where
  /-- The indices of the component types. -/
  registry : TypeRegistry T
  /-- The rows of all archetypes. -/
  store : RowStore T V
  /-- The node of the set without types. -/
  root : SetNode T
  /-- The nodes of all other sets. -/
  nodes : NodeTable T

namespace Catalog

variable {T V : Type}

/-- The catalog without archetypes. -/
def create (settings : Settings) : Except StoreError (Catalog T V) := do
  settings.validate
  let registry ← settings.registry
  let format ← settings.idFormat
  return ⟨registry, RowStore.empty format, SetNode.create rootKey DenseMap.empty, .empty⟩

/-- From now on memory answers requests in another way. -/
def withMemory (c : Catalog T V) (memory : Memory) : Catalog T V :=
  { c with registry := c.registry.withMemory memory, store := c.store.withMemory memory }

/-- The number of nodes, the root aside. -/
def nodeCount (c : Catalog T V) : Nat := c.nodes.size

/-- The node with a key. -/
def node? (c : Catalog T V) (key : UInt64) : Option (SetNode T) :=
  if key = rootKey then some c.root else c.nodes.get? key

/-- Change the node with a key. -/
def modifyNode (c : Catalog T V) (key : UInt64) (f : SetNode T → SetNode T) : Catalog T V :=
  if key = rootKey then { c with root := f c.root }
  else { c with nodes := c.nodes.modify key f }

/-- The archetype of the node with a key, if it was needed before. -/
def archetype? (c : Catalog T V) (key : UInt64) : Option (Archetype T) :=
  (c.node? key).bind (·.archetype)

/-- Every archetype, the one without types first. -/
def archetypes (c : Catalog T V) : List (Archetype T) :=
  c.root.archetype.toList ++ c.nodes.nodes.filterMap (·.archetype)

/-- Link a node to another one. -/
def link (c : Catalog T V) (source target : UInt64) : Catalog T V :=
  c.modifyNode source (·.link target)

/-- The number of claimed rows of an archetype. -/
def sizeOf (c : Catalog T V) (a : Archetype T) : Nat := c.store.partitionSize a.partition

variable [DecidableEq T] [ComponentType T]

omit [DecidableEq T] in
/-- Make the archetype of a node unless it is there. -/
def materialize (c : Catalog T V) (key : UInt64) :
    Except StoreError (Archetype T) × Catalog T V :=
  match c.node? key with
  | none => (.error .entityNotFound, c)
  | some n =>
    match n.archetype with
    | some a => (.ok a, c)
    | none =>
      match c.store.newPartition (Archetype.layoutOf n.types) with
      | (.error e, store) => (.error e, { c with store })
      | (.ok partition, store) =>
        (.ok (.ofTypes key n.types partition),
          { c with store }.modifyNode key fun n =>
            { n with archetype := some (.ofTypes key n.types partition) })

omit [DecidableEq T] [ComponentType T] in
/-- Make the node of a set of two or more types, with the nodes of its types, unless it is
there. -/
def ensureMulti (c : Catalog T V) (key : UInt64) (types : DenseMap T) :
    Except StoreError Unit × Catalog T V :=
  match c.nodes.has key types with
  | .error e => (.error e, c)
  | .ok true => (.ok (), c)
  | .ok false =>
    match c.nodes.ensureSingles types.toList with
    | (.error e, nodes) => (.error e, { c with nodes })
    | (.ok (), nodes) =>
      match nodes.ensure key types with
      | (.error e, nodes) => (.error e, { c with nodes })
      | (.ok (), nodes) =>
        (.ok (), { c with nodes := nodes.linkSingles key types.keys.toList })

/-- The key of the node of a component set, which is made if it is new. -/
def ensureNode (c : Catalog T V) (ts : List T) : Except StoreError UInt64 × Catalog T V :=
  match ts with
  | [] => (.ok rootKey, c)
  | t :: rest =>
    match c.registry.keyOf (t :: rest) with
    | (.error e, registry) => (.error e, { c with registry })
    | (.ok (key, types), registry) =>
      if types.size = 1 then
        match c.nodes.ensure key types with
        | (.error e, nodes) => (.error e, { c with registry, nodes })
        | (.ok (), nodes) => (.ok key, { c with registry, nodes })
      else
        match { c with registry }.ensureMulti key types with
        | (.error e, c) => (.error e, c)
        | (.ok (), c) => (.ok key, c)

/-- The archetype of a component set, which is made if it is new. -/
def ensure (c : Catalog T V) (ts : List T) : Except StoreError (Archetype T) × Catalog T V :=
  match c.ensureNode ts with
  | (.error e, c) => (.error e, c)
  | (.ok key, c) => c.materialize key

end Catalog

end ArchetypeStore

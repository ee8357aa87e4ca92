import ArchetypeStore.Catalog.Basic
import ArchetypeStore.RowStore.Removal

/-! # The end of a catalog

  A node is held by the catalog and by every node that is linked to it. When the catalog
  ends, the nodes that nothing else holds go, with their links; then those that only these
  held, and so on. Links that run in a circle keep their nodes for good, with every node
  that the circle leads to. An archetype goes with its node, and the rows of all archetypes
  go when no archetype is left.
-/

namespace ArchetypeStore

namespace SetNode

variable {T : Type}

/-- The nodes of the list that a node of the list is linked to. -/
def held (nodes : List (SetNode T)) : List (SetNode T) :=
  nodes.filter fun n => nodes.any (·.isLinked n.key)

/-- What is left after some rounds, in each of which the nodes go that none holds. -/
def heldAfter (nodes : List (SetNode T)) : (rounds : Nat) → List (SetNode T)
  | 0 => nodes
  | rounds + 1 => heldAfter (held nodes) rounds

end SetNode

namespace Catalog

variable {T V : Type}

/-- The nodes that outlive the catalog. Once a round takes none away no later one does, so
there need be no more rounds than nodes. -/
def lasting (c : Catalog T V) : List (SetNode T) :=
  SetNode.heldAfter (c.root :: c.nodes.nodes) (c.nodeCount + 1)

/-- The catalog when only some of its nodes are left. -/
def keepOnly (c : Catalog T V) (nodes : List (SetNode T)) : Catalog T V :=
  { c with
    root := (nodes.find? (·.key == rootKey)).getD (SetNode.create rootKey DenseMap.empty)
    nodes := ⟨nodes.filter (·.key != rootKey)⟩ }

/-- End the catalog. The answer is the values that are dropped: all that are stored, or
none as long as an archetype is left. The id words of the items stay. -/
def close (c : Catalog T V) : List V × Catalog T V :=
  if c.lasting.any (·.archetype.isSome) then ([], c.keepOnly c.lasting)
  else
    (c.store.storedValues,
      { c with store := { c.store with chunks := #[], partitions := #[] } }.keepOnly
        c.lasting)

end Catalog

end ArchetypeStore

import ArchetypeStore.Catalog.Basic

/-! # Finding component sets

  The nodes whose sets contain some types are found through links. For one type they are
  the node of the type and everything linked to it. For several types they are linked to
  the nodes of all of them; the search starts from the node with the fewest links.
-/

namespace ArchetypeStore.Catalog

variable {T V : Type} [DecidableEq T] [ComponentType T]

/-- The node of a single type. -/
def single? (c : Catalog T V) (t : T) : Option (SetNode T) :=
  (c.registry.index? t).bind fun index => c.nodes.get? (UInt64.ofNat index)

omit [DecidableEq T] [ComponentType T] in
/-- The keys that all of several nodes are linked to. -/
def commonLinks (nodes : List (SetNode T)) : List UInt64 :=
  match nodes.mergeSort fun a b => a.links.length ≤ b.links.length with
  | [] => []
  | seed :: rest => seed.links.filter fun key => rest.all (·.isLinked key)

/-- The keys of the nodes whose sets contain all of the types. -/
def find (c : Catalog T V) (ts : List T) : List UInt64 :=
  match ts.eraseDups.mapM c.single? with
  | none => []
  | some [] => []
  | some [n] => n.key :: n.links
  | some nodes => commonLinks nodes

/-- The archetypes whose sets contain all of the types. -/
def findArchetypes (c : Catalog T V) (ts : List T) : List (Archetype T) :=
  (c.find ts).filterMap c.archetype?

end ArchetypeStore.Catalog

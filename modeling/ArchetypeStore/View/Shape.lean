import ArchetypeStore.Text.Record

/-! # Shapes

  A query asks for components in some shape: a single one, or a tuple whose parts are
  queries again. The slots of the components and the components found have the same shape.
-/

namespace ArchetypeStore

/-- One element, or a tuple of shapes. -/
inductive Shape (α : Type) where
  | leaf (a : α)
  | tuple (parts : List (Shape α))

namespace Shape

variable {α β : Type}

mutual

/-- The elements in the order in which they are written. -/
def leaves : Shape α → List α
  | leaf a => [a]
  | tuple parts => leavesOf parts

/-- The elements of several shapes. -/
def leavesOf : List (Shape α) → List α
  | [] => []
  | part :: rest => leaves part ++ leavesOf rest

end

mutual

/-- Replace every element; `none` when one of them has no replacement. -/
def traverse? (f : α → Option β) : Shape α → Option (Shape β)
  | leaf a => (f a).map leaf
  | tuple parts => (traverseOf? f parts).map tuple

/-- Replace every element of several shapes. -/
def traverseOf? (f : α → Option β) : List (Shape α) → Option (List (Shape β))
  | [] => some []
  | part :: rest =>
    match traverse? f part, traverseOf? f rest with
    | some part, some rest => some (part :: rest)
    | _, _ => none

end

mutual

/-- The shape on one line, for logs. -/
def describe (f : α → String) : Shape α → String
  | leaf a => f a
  | tuple parts => Text.tuple (describeAll f parts)

/-- Several shapes, each on one line. -/
def describeAll (f : α → String) : List (Shape α) → List String
  | [] => []
  | part :: rest => describe f part :: describeAll f rest

end

end Shape

end ArchetypeStore

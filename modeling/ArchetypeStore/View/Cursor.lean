import ArchetypeStore.View.Basic

/-! # Cursors

  A cursor walks over a view one hit at a time. When it enters a chunk it notes the fill
  index, so rows that are claimed later in that chunk are not visited; chunks that it has
  not entered yet are seen as they are then.
-/

namespace ArchetypeStore

/-- A place in the walk over a view. -/
structure Cursor (T : Type) where
  /-- The part that is walked, once the walk has begun. -/
  part : Option (ViewPart T)
  /-- The chunk that is walked. -/
  chunk : Nat
  /-- The next row. -/
  row : Nat
  /-- The number of rows that are left of the chunk. -/
  left : Nat
  /-- The chunks of the part that are left. -/
  chunks : List Nat
  /-- The parts that are left. -/
  parts : List (ViewPart T)

namespace Cursor

variable {T V : Type}

/-- The cursor before the first hit. -/
def start (v : View T) : Cursor T := ⟨none, 0, 0, 0, [], v.parts⟩

/-- The first hit in `left` rows of a chunk, with the row behind it and the number of rows
that are left then. -/
def inRows (s : RowStore T V) (part : ViewPart T) (chunk row : Nat) :
    (left : Nat) → Option (Hit V × Nat × Nat)
  | 0 => none
  | left + 1 =>
    match (s.cell? chunk row).bind (View.hit? part) with
    | some h => some (h, row + 1, left)
    | none => inRows s part chunk (row + 1) left

/-- The first hit in the chunks that are left of a part. -/
def inChunks (s : RowStore T V) (part : ViewPart T) (parts : List (ViewPart T)) :
    List Nat → Option (Hit V × Cursor T)
  | [] => none
  | chunk :: chunks =>
    match inRows s part chunk 0 (s.fill chunk) with
    | some (h, row, left) => some (h, ⟨some part, chunk, row, left, chunks, parts⟩)
    | none => inChunks s part parts chunks

/-- The first hit in the parts that are left. -/
def inParts (s : RowStore T V) : List (ViewPart T) → Option (Hit V × Cursor T)
  | [] => none
  | part :: parts =>
    match inChunks s part parts (s.chain part.archetype.partition) with
    | some found => some found
    | none => inParts s parts

/-- The next hit, with the cursor behind it. -/
def next (s : RowStore T V) (c : Cursor T) : Option (Hit V × Cursor T) :=
  match c.part with
  | none => inParts s c.parts
  | some part =>
    match inRows s part c.chunk c.row c.left with
    | some (h, row, left) => some (h, { c with row, left })
    | none =>
      match inChunks s part c.parts c.chunks with
      | some found => some found
      | none => inParts s c.parts

/-- The hits that at most `count` steps come to. -/
def take (s : RowStore T V) (c : Cursor T) : (count : Nat) → List (Hit V)
  | 0 => []
  | count + 1 =>
    match c.next s with
    | none => []
    | some (h, c) => h :: c.take s count

end Cursor

/-- The hits of a view in the order of a cursor. There is at most one to a claimed row. -/
def View.toList {T V : Type} (v : View T) (s : RowStore T V) : List (Hit V) :=
  (Cursor.start v).take s (v.size s)

end ArchetypeStore

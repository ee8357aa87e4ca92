import ArchetypeStore.RowStore.Basic

/-! # Scans

  A scan comes to the items of a partition one at a time. It notes a position in the chain
  and the next row of the chunk there. When the claimed rows of the chunk are used up it goes
  to the next position, and rows without an item are passed over.
-/

namespace ArchetypeStore

/-- A place in the walk over a partition. -/
structure Scan where
  /-- The position of the chunk in the chain. -/
  position : Nat
  /-- The next row. -/
  row : Nat
  deriving DecidableEq

namespace Scan

variable {T V : Type}

/-- The scan before the first item. -/
def start : Scan := ⟨0, 0⟩

/-- The claimed rows of the chunk at a position in the chain. -/
def fillAt (s : RowStore T V) (partition position : Nat) : Nat :=
  ((s.chain partition)[position]?.map s.fill).getD 0

/-- The next row with an item, with the scan behind it. -/
def next (s : RowStore T V) (partition : Nat) (c : Scan) : Option (RowView V × Scan) :=
  match hchunk : (s.chain partition)[c.position]? with
  | none => none
  | some chunk =>
    if hrow : s.fill chunk ≤ c.row then next s partition ⟨c.position + 1, 0⟩
    else if (s.cell? chunk c.row).isSome then
      some (s.view chunk c.row, ⟨c.position, c.row + 1⟩)
    else next s partition ⟨c.position, c.row + 1⟩
  termination_by ((s.chain partition).length - c.position, fillAt s partition c.position - c.row)
  decreasing_by
    · have hlt := (List.getElem?_eq_some_iff.mp hchunk).1
      exact Prod.Lex.left _ _ (by omega)
    · have hfill : fillAt s partition c.position = s.fill chunk := by
        rw [fillAt, hchunk]
        rfl
      refine Prod.Lex.right _ ?_
      show fillAt s partition c.position - (c.row + 1) < fillAt s partition c.position - c.row
      omega

end Scan

end ArchetypeStore

import ArchetypeStore.Proofs.Iteration
import ArchetypeStore.Proofs.RowStore.Frame
import ArchetypeStore.RowStore.Scan
import Mathlib.Data.List.Basic

/-! # The scan of a partition

  At each place in a scan there is a list of rows that are left: what is left of the chunk,
  and the chunks behind it. A step takes the first row off this list, and the list is empty
  when the scan finds no more. So a scan comes to an end, and on the way to each published
  row of the partition, chunk after chunk and by ascending number.
-/

namespace ArchetypeStore

namespace RowStore

variable {T V : Type}

/-! ### Published rows -/

/-- The rows of a chunk that hold an item, by ascending number. -/
def publishedIn (s : RowStore T V) (chunk : Nat) : List (Nat × Cell V) :=
  (List.range (s.fill chunk)).filterMap fun row => (s.cell? chunk row).map fun cell => (row, cell)

theorem mem_publishedIn {s : RowStore T V} {chunk row : Nat} {cell : Cell V} :
    (row, cell) ∈ s.publishedIn chunk ↔ s.cell? chunk row = some cell := by
  unfold publishedIn
  rw [List.mem_filterMap]
  constructor
  · rintro ⟨row', -, hcell⟩
    obtain ⟨cell', hcell', heq⟩ := Option.map_eq_some_iff.mp hcell
    cases heq
    exact hcell'
  · intro hcell
    exact ⟨row, List.mem_range.mpr (lt_fill_of_cell? hcell), by rw [hcell]; rfl⟩

theorem publishedIn_ascending (s : RowStore T V) (chunk : Nat) :
    (s.publishedIn chunk).Pairwise fun a b => a.1 < b.1 := by
  refine List.pairwise_lt_range.filterMap _ fun row row' hlt a ha b hb => ?_
  obtain ⟨_, -, rfl⟩ := Option.map_eq_some_iff.mp ha
  obtain ⟨_, -, rfl⟩ := Option.map_eq_some_iff.mp hb
  exact hlt

theorem publishedFrom_eq (start : Nat) (rows : List (Option (Cell V))) :
    Chunk.publishedFrom start rows = (List.range rows.length).filterMap fun i =>
      (rows[i]?.join).map fun cell => (start + i, cell) := by
  induction rows generalizing start with
  | nil => rfl
  | cons first rest ih =>
    rw [List.length_cons, List.range_succ_eq_map, List.filterMap_cons, List.filterMap_map]
    have hrest :
        ((fun i => ((first :: rest)[i]?.join).map fun cell => (start + i, cell)) ∘ Nat.succ) =
          fun i => (rest[i]?.join).map fun cell => (start + 1 + i, cell) := by
      funext i
      have hsucc : start + (i + 1) = start + 1 + i := by omega
      simp only [Function.comp_apply, Nat.succ_eq_add_one, List.getElem?_cons_succ, hsucc]
    rw [hrest, ← ih]
    cases first <;> rfl

/-- A walk comes to the published rows of a chunk. -/
theorem walkChunk_eq (s : RowStore T V) (chunk : Nat) :
    s.walkChunk chunk = (s.publishedIn chunk).map fun (row, cell) =>
      ⟨s.format.slotId chunk row, chunk, row, some cell⟩ := by
  rw [walkChunk, publishedFrom_eq, publishedIn, fill_eq, Array.length_toList]
  refine congrArg _ (List.filterMap_congr fun row _ => ?_)
  rw [cell?_eq, Array.getElem?_toList, Nat.zero_add]

end RowStore

/-! ### Steps -/

namespace Scan

variable {T V : Type} (s : RowStore T V) (partition : Nat)

/-- The rows of a chunk that are left, as an operation sees them. -/
def rowsLeft (chunk row : Nat) : List (RowView V) :=
  (List.range' row (s.fill chunk - row)).filterMap fun r =>
    (s.cell? chunk r).map fun _ => s.view chunk r

/-- The rows that the scan has not come to. -/
def rest (c : Scan) : List (RowView V) :=
  match (s.chain partition).drop c.position with
  | [] => []
  | chunk :: chunks => rowsLeft s chunk c.row ++ chunks.flatMap (rowsLeft s · 0)

theorem rowsLeft_zero (chunk : Nat) : rowsLeft s chunk 0 = s.walkChunk chunk := by
  rw [rowsLeft, RowStore.walkChunk_eq, RowStore.publishedIn, Nat.sub_zero, List.range_eq_range',
    List.map_filterMap]
  refine List.filterMap_congr fun row _ => ?_
  cases hcell : s.cell? chunk row with
  | none => rfl
  | some cell => simp [RowStore.view, hcell]

theorem rowsLeft_claimed {chunk row : Nat} (hrow : row < s.fill chunk) :
    rowsLeft s chunk row =
      ((s.cell? chunk row).map fun _ => s.view chunk row).toList ++ rowsLeft s chunk (row + 1) := by
  have hleft : s.fill chunk - row = s.fill chunk - (row + 1) + 1 := by omega
  rw [rowsLeft, hleft, List.range'_succ, List.filterMap_cons, rowsLeft]
  cases s.cell? chunk row <;> rfl

theorem rest_start : start.rest s partition = s.walk partition := by
  have hzero : (rowsLeft s · 0) = s.walkChunk := funext (rowsLeft_zero s)
  rw [RowStore.walk_eq, rest, start, List.drop_zero]
  cases s.chain partition with
  | nil => rfl
  | cons chunk chunks =>
    simp only [List.flatMap_cons]
    rw [hzero, rowsLeft_zero]

section next

variable {s partition} {c : Scan}

theorem next_of_end (hchunk : (s.chain partition)[c.position]? = none) :
    c.next s partition = none := by
  unfold next
  split
  · rfl
  · rename_i hsome
    cases hchunk.symm.trans hsome

variable {chunk : Nat} (hchunk : (s.chain partition)[c.position]? = some chunk)

include hchunk

theorem next_of_used_up (hrow : s.fill chunk ≤ c.row) :
    c.next s partition = next s partition ⟨c.position + 1, 0⟩ := by
  rw [next]
  split
  · rename_i hnone
    cases hchunk.symm.trans hnone
  · rename_i hsome
    cases hchunk.symm.trans hsome
    rw [dif_pos hrow]

theorem next_of_claimed (hrow : ¬ s.fill chunk ≤ c.row) :
    c.next s partition = if (s.cell? chunk c.row).isSome then
      some (s.view chunk c.row, ⟨c.position, c.row + 1⟩)
    else next s partition ⟨c.position, c.row + 1⟩ := by
  rw [next]
  split
  · rename_i hnone
    cases hchunk.symm.trans hnone
  · rename_i hsome
    cases hchunk.symm.trans hsome
    rw [dif_neg hrow]

/-- What is left of a chunk and behind it. -/
theorem rest_eq : c.rest s partition = rowsLeft s chunk c.row ++
    ((s.chain partition).drop (c.position + 1)).flatMap (rowsLeft s · 0) := by
  obtain ⟨hlt, hget⟩ := List.getElem?_eq_some_iff.mp hchunk
  rw [rest, List.drop_eq_getElem_cons hlt, hget]

end next

/-- Behind the end of a chunk the next one begins. -/
theorem rest_next (position : Nat) : rest s partition ⟨position, 0⟩ =
    ((s.chain partition).drop position).flatMap (rowsLeft s · 0) := by
  rw [rest]
  cases (s.chain partition).drop position <;> rfl

theorem next_spec (c : Scan) : TakesFirst (rest s partition) c (c.next s partition) := by
  induction c using next.induct s partition with
  | case1 c hchunk =>
    rw [next_of_end hchunk]
    show rest s partition c = []
    rw [rest, List.drop_eq_nil_of_le (List.getElem?_eq_none_iff.mp hchunk)]
  | case2 c chunk hchunk hrow ih =>
    have hused : rowsLeft s chunk c.row = [] := by
      rw [rowsLeft, Nat.sub_eq_zero_of_le hrow]
      rfl
    have hrest : rest s partition c = rest s partition ⟨c.position + 1, 0⟩ := by
      rw [rest_eq hchunk, hused, rest_next, List.nil_append]
    rw [next_of_used_up hchunk hrow]
    unfold TakesFirst at ih ⊢
    rwa [hrest]
  | case3 c chunk hchunk hrow hcell =>
    obtain ⟨cell, hcell⟩ := Option.isSome_iff_exists.mp hcell
    rw [next_of_claimed hchunk hrow, hcell]
    show rest s partition c = s.view chunk c.row :: rest s partition ⟨c.position, c.row + 1⟩
    rw [rest_eq hchunk, rest_eq (c := ⟨c.position, c.row + 1⟩) hchunk,
      rowsLeft_claimed s (Nat.lt_of_not_le hrow), hcell]
    rfl
  | case4 c chunk hchunk hrow hcell ih =>
    have hnone : s.cell? chunk c.row = none := by simpa using hcell
    have hrest : rest s partition c = rest s partition ⟨c.position, c.row + 1⟩ := by
      rw [rest_eq hchunk, rest_eq (c := ⟨c.position, c.row + 1⟩) hchunk,
        rowsLeft_claimed s (Nat.lt_of_not_le hrow), hnone]
      rfl
    rw [next_of_claimed hchunk hrow, if_neg hcell]
    unfold TakesFirst at ih ⊢
    rwa [hrest]

/-- A scan comes to the published rows of the partition, one by one and in their order. -/
theorem yields_walk : Yields (Scan.next s partition) start (s.walk partition) := by
  rw [← rest_start]
  exact Yields.of_rest (next_spec s partition) start

end Scan

end ArchetypeStore

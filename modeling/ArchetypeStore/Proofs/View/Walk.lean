import ArchetypeStore.Proofs.RowStore.Observe
import ArchetypeStore.View.Cursor

/-! # The walk of a cursor

  At each place in a walk there is a list of hits that are left. A step of the cursor takes
  the first one off this list, and the list is empty when the cursor finds no more. So a
  cursor comes to the hits of a view one by one, in their order, and there are never more
  of them than claimed rows.
-/

namespace ArchetypeStore

variable {T V : Type}

namespace Cursor

/-! ### Hits that are left -/

/-- The hits in some rows of a chunk. -/
def rowHits (s : RowStore T V) (part : ViewPart T) (chunk row left : Nat) : List (Hit V) :=
  (List.range' row left).filterMap fun r => (s.cell? chunk r).bind (View.hit? part)

/-- The hits in a whole chunk. -/
def chunkHits (s : RowStore T V) (part : ViewPart T) (chunk : Nat) : List (Hit V) :=
  rowHits s part chunk 0 (s.fill chunk)

/-- The hits in a whole part. -/
def partHits (s : RowStore T V) (part : ViewPart T) : List (Hit V) :=
  (s.chain part.archetype.partition).flatMap (chunkHits s part)

/-- The hits that the cursor has not come to. -/
def rest (s : RowStore T V) (c : Cursor T) : List (Hit V) :=
  (match c.part with
    | none => []
    | some part =>
      rowHits s part c.chunk c.row c.left ++ c.chunks.flatMap (chunkHits s part)) ++
    c.parts.flatMap (partHits s)

/-! ### Steps -/

variable {s : RowStore T V}

theorem inRows_spec (part : ViewPart T) (chunk row left : Nat) :
    match inRows s part chunk row left with
    | none => rowHits s part chunk row left = []
    | some (h, row', left') =>
      rowHits s part chunk row left = h :: rowHits s part chunk row' left' := by
  induction left generalizing row with
  | zero => rfl
  | succ left ih =>
    unfold inRows
    -- The first row makes one hit or none.
    have hsplit : rowHits s part chunk row (left + 1) =
        ((s.cell? chunk row).bind (View.hit? part)).toList ++
          rowHits s part chunk (row + 1) left := by
      unfold rowHits
      rw [List.range'_succ, List.filterMap_cons]
      cases (s.cell? chunk row).bind (View.hit? part) <;> rfl
    rw [hsplit]
    cases hhit : (s.cell? chunk row).bind (View.hit? part) with
    | some h => rfl
    | none => exact ih (row + 1)

theorem inChunks_spec (part : ViewPart T) (parts : List (ViewPart T)) (chunks : List Nat) :
    match inChunks s part parts chunks with
    | none => chunks.flatMap (chunkHits s part) = []
    | some (h, c) =>
      chunks.flatMap (chunkHits s part) ++ parts.flatMap (partHits s) = h :: c.rest s := by
  induction chunks with
  | nil => rfl
  | cons chunk chunks ih =>
    unfold inChunks
    have hrows := inRows_spec (s := s) part chunk 0 (s.fill chunk)
    cases hfound : inRows s part chunk 0 (s.fill chunk) with
    | some found =>
      obtain ⟨h, row, left⟩ := found
      simp only [hfound] at hrows
      simp only [List.flatMap_cons, chunkHits, hrows, rest, List.cons_append, List.append_assoc]
    | none =>
      simp only [hfound] at hrows
      have hempty : chunkHits s part chunk = [] := hrows
      simp only [List.flatMap_cons, hempty, List.nil_append]
      exact ih

theorem inParts_spec (parts : List (ViewPart T)) :
    match inParts s parts with
    | none => parts.flatMap (partHits s) = []
    | some (h, c) => parts.flatMap (partHits s) = h :: c.rest s := by
  induction parts with
  | nil => rfl
  | cons part parts ih =>
    unfold inParts
    have hchunks := inChunks_spec (s := s) part parts (s.chain part.archetype.partition)
    cases hfound : inChunks s part parts (s.chain part.archetype.partition) with
    | some found =>
      obtain ⟨h, c⟩ := found
      simp only [hfound] at hchunks
      exact hchunks
    | none =>
      simp only [hfound] at hchunks
      have hempty : partHits s part = [] := hchunks
      simp only [List.flatMap_cons, hempty, List.nil_append]
      exact ih

/-- A step takes the first hit that is left. -/
theorem next_spec (c : Cursor T) :
    match c.next s with
    | none => c.rest s = []
    | some (h, c') => c.rest s = h :: c'.rest s := by
  obtain ⟨part, chunk, row, left, chunks, parts⟩ := c
  unfold next
  cases part with
  | none => exact inParts_spec parts
  | some part =>
    simp only
    have hrows := inRows_spec (s := s) part chunk row left
    cases hfound : inRows s part chunk row left with
    | some found =>
      obtain ⟨h, row', left'⟩ := found
      simp only [hfound] at hrows
      simp only [rest, hrows, List.cons_append]
    | none =>
      simp only [hfound] at hrows
      simp only [rest, hrows, List.nil_append]
      have hchunks := inChunks_spec (s := s) part parts chunks
      cases hfound' : inChunks s part parts chunks with
      | some found =>
        obtain ⟨h, c⟩ := found
        simp only [hfound'] at hchunks
        exact hchunks
      | none =>
        simp only [hfound'] at hchunks
        rw [hchunks]
        exact inParts_spec parts

theorem take_eq (c : Cursor T) (count : Nat) : c.take s count = (c.rest s).take count := by
  induction count generalizing c with
  | zero => rfl
  | succ count ih =>
    have hnext := next_spec (s := s) c
    unfold take
    cases hstep : c.next s with
    | none =>
      simp only [hstep] at hnext
      rw [hnext]
      rfl
    | some found =>
      obtain ⟨h, c'⟩ := found
      simp only [hstep] at hnext
      rw [hnext, List.take_succ_cons, ← ih c']

end Cursor

namespace View

/-! ### Whole views -/

variable (v : View T) (s : RowStore T V)

/-- The published rows of a chunk in the order of their numbers. -/
theorem filterMap_publishedFrom {α : Type} (f : Cell V → Option α) (start : Nat)
    (rows : List (Option (Cell V))) :
    (Chunk.publishedFrom start rows).filterMap (fun (_, cell) => f cell) =
      rows.filterMap fun row => row.bind f := by
  induction rows generalizing start with
  | nil => rfl
  | cons row rest ih =>
    cases row with
    | none => exact ih (start + 1)
    | some cell =>
      rw [Chunk.publishedFrom, List.filterMap_cons, List.filterMap_cons, ih]
      rfl

theorem taskHits_eq (part : ViewPart T) (chunk : Nat) :
    taskHits s (part, chunk) = (s.rows chunk).toList.filterMap fun row => row.bind (hit? part) := by
  unfold taskHits RowStore.rows
  cases hchunk : s.chunks[chunk]? with
  | none => rfl
  | some c => exact filterMap_publishedFrom (hit? part) 0 c.rows.toList

theorem chunkHits_eq (part : ViewPart T) (chunk : Nat) :
    Cursor.chunkHits s part chunk = taskHits s (part, chunk) := by
  have hrows : (s.rows chunk).toList = (List.range (s.fill chunk)).map fun r =>
      (s.cell? chunk r) := by
    apply List.ext_getElem
    · simp [RowStore.fill_eq]
    · intro i hi hi'
      have hlt : i < (s.rows chunk).size := by simpa using hi
      simp [RowStore.cell?_eq, hlt]
  rw [taskHits_eq, hrows, List.filterMap_map, Cursor.chunkHits, Cursor.rowHits,
    List.range_eq_range']
  rfl

theorem rest_start : (Cursor.start v).rest s = v.hits s := by
  have htasks : ∀ parts : List (ViewPart T), parts.flatMap (Cursor.partHits s) =
      (parts.flatMap fun part => (s.chain part.archetype.partition).map fun chunk =>
        (part, chunk)).flatMap (taskHits s) := by
    intro parts
    induction parts with
    | nil => rfl
    | cons part parts ih =>
      rw [List.flatMap_cons, List.flatMap_cons, List.flatMap_append, ← ih, List.flatMap_map]
      refine congrArg (· ++ _) ?_
      unfold Cursor.partHits
      rw [List.flatMap_def, List.flatMap_def]
      exact congrArg List.flatten (List.map_congr_left fun chunk _ => chunkHits_eq s part chunk)
  exact htasks v.parts

/-- A view has at most one hit to a claimed row. -/
theorem length_hits_le : (v.hits s).length ≤ v.size s := by
  unfold hits size
  generalize v.tasks s = tasks
  induction tasks with
  | nil => exact Nat.le_refl 0
  | cons task rest ih =>
    have htask : (taskHits s task).length ≤ s.fill task.2 := by
      rw [taskHits_eq, RowStore.fill_eq, ← Array.length_toList]
      exact List.length_filterMap_le ..
    rw [List.flatMap_cons, List.length_append, List.map_cons, List.foldr_cons]
    exact Nat.add_le_add htask ih

/-- A cursor that runs to its end comes to each hit of the view, in order. -/
theorem toList_eq_hits : v.toList s = v.hits s := by
  unfold toList
  -- The cursor is given as many steps as rows are claimed, which is enough.
  rw [Cursor.take_eq, rest_start, List.take_of_length_le (v.length_hits_le s)]

end View

end ArchetypeStore

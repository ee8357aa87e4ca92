import ArchetypeStore.Proofs.BoundedStack
import ArchetypeStore.Proofs.RowStore.Search
import ArchetypeStore.Proofs.SlotId
import ArchetypeStore.RowStore.Issue
import ArchetypeStore.RowStore.Removal

/-! # What can be seen of a row store

  A row store is seen through a few functions: the fill index and the cells of its chunks,
  the chain and the free ids of its partitions, the id words of its items. The lemmas here
  say what each primitive change does to them; nothing below this module opens the arrays.
-/

namespace ArchetypeStore.RowStore

variable {T V : Type}

/-! ### Observers -/

/-- The claimed rows of a chunk. -/
def rows (s : RowStore T V) (chunk : Nat) : Array (Option (Cell V)) :=
  (s.chunks[chunk]?.map (·.rows)).getD #[]

/-- The ids on the free stack of a partition, the one to be issued next first. -/
def freeList (s : RowStore T V) (partition : Nat) : List SlotId :=
  (s.partitions[partition]?.map (·.freeIds.toList)).getD []

/-- The current chunk of a partition. -/
def current? (s : RowStore T V) (partition : Nat) : Option Nat :=
  s.partitions[partition]?.bind Partition.current?

theorem fill_eq (s : RowStore T V) (chunk : Nat) : s.fill chunk = (s.rows chunk).size := by
  unfold fill rows
  cases s.chunks[chunk]? <;> rfl

theorem cell?_eq (s : RowStore T V) (chunk row : Nat) :
    s.cell? chunk row = (s.rows chunk)[row]?.join := by
  unfold cell? rows
  cases s.chunks[chunk]? <;> rfl

/-- A row that was not claimed is empty. -/
theorem cell?_of_fill_le {s : RowStore T V} {chunk row : Nat} (h : s.fill chunk ≤ row) :
    s.cell? chunk row = none := by
  rw [fill_eq] at h
  rw [cell?_eq, Array.getElem?_eq_none h]
  rfl

theorem lt_fill_of_cell? {s : RowStore T V} {chunk row : Nat} {cell : Cell V}
    (h : s.cell? chunk row = some cell) : row < s.fill chunk := by
  apply Nat.lt_of_not_le
  intro hle
  rw [cell?_of_fill_le hle] at h
  cases h

/-- A chunk that was not made has no claimed rows. -/
theorem fill_of_chunkCount_le {s : RowStore T V} {chunk : Nat} (h : s.chunkCount ≤ chunk) :
    s.fill chunk = 0 := by
  unfold fill
  rw [Array.getElem?_eq_none h]
  rfl

theorem lt_chunkCount_of_lt_fill {s : RowStore T V} {chunk row : Nat}
    (h : row < s.fill chunk) : chunk < s.chunkCount := by
  apply Nat.lt_of_not_le
  intro hle
  rw [fill_of_chunkCount_le hle] at h
  omega

theorem chain_eq_getD (s : RowStore T V) (partition : Nat) :
    s.chain partition = (s.partitions[partition]?.map (·.chain.toList)).getD [] := by
  unfold chain
  cases s.partitions[partition]? <;> rfl

theorem chain_eq {s : RowStore T V} {partition : Nat} {p : Partition T}
    (h : s.partitions[partition]? = some p) : s.chain partition = p.chain.toList := by
  simp [chain, h]

theorem freeList_eq {s : RowStore T V} {partition : Nat} {p : Partition T}
    (h : s.partitions[partition]? = some p) : s.freeList partition = p.freeIds.toList := by
  simp [freeList, h]

theorem current?_eq {s : RowStore T V} {partition : Nat} {p : Partition T}
    (h : s.partitions[partition]? = some p) : s.current? partition = p.chain.back? := by
  simp [current?, h, Partition.current?]

theorem chain_of_none {s : RowStore T V} {partition : Nat}
    (h : s.partitions[partition]? = none) : s.chain partition = [] := by
  simp [chain, h]

/-- The current chunk is the last one of the chain. -/
theorem current?_eq_getLast? (s : RowStore T V) (partition : Nat) :
    s.current? partition = (s.chain partition).getLast? := by
  cases h : s.partitions[partition]? with
  | none => simp [current?, chain, h]
  | some p => rw [current?_eq h, chain_eq h, Array.getLast?_toList]

theorem mem_chain_of_current? {s : RowStore T V} {partition chunk : Nat}
    (h : s.current? partition = some chunk) : chunk ∈ s.chain partition := by
  rw [current?_eq_getLast?] at h
  exact List.mem_of_getLast? h

/-- The row of an id is seen as it is. -/
theorem of_row {s : RowStore T V} {partition : Nat} {id : SlotId} {v : RowView V}
    (h : s.row partition id = .ok v) :
    s.locate partition id = some (v.chunk, v.row) ∧ s.cell? v.chunk v.row = v.cell := by
  unfold row at h
  split at h
  · cases h
  · rename_i chunk r hlocate
    cases h
    exact ⟨hlocate, rfl⟩

/-! ### Rows -/

theorem rows_modifyRows (s : RowStore T V) {chunk : Nat} (hc : chunk < s.chunkCount)
    (f : Array (Option (Cell V)) → Array (Option (Cell V))) (chunk' : Nat) :
    (s.modifyRows chunk f).rows chunk' =
      if chunk' = chunk then f (s.rows chunk) else s.rows chunk' := by
  unfold rows modifyRows modifyChunk
  rw [Array.getElem?_modify]
  by_cases h : chunk' = chunk
  · subst h
    rw [if_pos rfl, if_pos rfl, Array.getElem?_eq_getElem hc]
    rfl
  · rw [if_neg (Ne.symm h), if_neg h]

section modifyRows

variable (s : RowStore T V) (chunk : Nat) (f : Array (Option (Cell V)) → Array (Option (Cell V)))

@[simp] theorem format_modifyRows : (s.modifyRows chunk f).format = s.format := rfl

@[simp] theorem partitions_modifyRows : (s.modifyRows chunk f).partitions = s.partitions := rfl

@[simp] theorem ids_modifyRows : (s.modifyRows chunk f).ids = s.ids := rfl

@[simp] theorem chunkCount_modifyRows : (s.modifyRows chunk f).chunkCount = s.chunkCount :=
  Array.size_modify ..

end modifyRows

@[simp] theorem format_setCell (s : RowStore T V) (chunk row : Nat) (cell : Option (Cell V)) :
    (s.setCell chunk row cell).format = s.format := rfl

@[simp] theorem partitions_setCell (s : RowStore T V) (chunk row : Nat)
    (cell : Option (Cell V)) : (s.setCell chunk row cell).partitions = s.partitions := rfl

@[simp] theorem ids_setCell (s : RowStore T V) (chunk row : Nat) (cell : Option (Cell V)) :
    (s.setCell chunk row cell).ids = s.ids := rfl

@[simp] theorem chunkCount_setCell (s : RowStore T V) (chunk row : Nat)
    (cell : Option (Cell V)) : (s.setCell chunk row cell).chunkCount = s.chunkCount :=
  Array.size_modify ..

theorem fill_setCell (s : RowStore T V) {chunk row : Nat} (hrow : row < s.fill chunk)
    (cell : Option (Cell V)) (chunk' : Nat) :
    (s.setCell chunk row cell).fill chunk' = s.fill chunk' := by
  rw [fill_eq, fill_eq, setCell, rows_modifyRows s (lt_chunkCount_of_lt_fill hrow)]
  split
  · rename_i h
    rw [h, Array.size_setIfInBounds]
  · rfl

/-- Writing a claimed row leaves all other rows as they are. -/
theorem cell?_setCell (s : RowStore T V) {chunk row : Nat} (hrow : row < s.fill chunk)
    (cell : Option (Cell V)) (chunk' row' : Nat) :
    (s.setCell chunk row cell).cell? chunk' row' =
      if chunk' = chunk ∧ row' = row then cell else s.cell? chunk' row' := by
  rw [cell?_eq, cell?_eq, setCell, rows_modifyRows s (lt_chunkCount_of_lt_fill hrow)]
  rw [fill_eq] at hrow
  by_cases hc : chunk' = chunk
  · by_cases hr : row' = row
    · subst hc hr
      simp [hrow]
    · rw [if_pos hc, if_neg (fun h => hr h.2), Array.getElem?_setIfInBounds_ne (Ne.symm hr), hc]
  · rw [if_neg hc, if_neg (fun h => hc h.1)]

/-- Claiming the next row adds an empty one. -/
theorem fill_push (s : RowStore T V) {chunk : Nat} (hc : chunk < s.chunkCount) (chunk' : Nat) :
    (s.modifyRows chunk (·.push none)).fill chunk' =
      if chunk' = chunk then s.fill chunk + 1 else s.fill chunk' := by
  rw [fill_eq, fill_eq, fill_eq, rows_modifyRows s hc]
  split
  · rw [Array.size_push]
  · rfl

theorem cell?_push (s : RowStore T V) {chunk : Nat} (hc : chunk < s.chunkCount)
    (chunk' row : Nat) :
    (s.modifyRows chunk (·.push none)).cell? chunk' row = s.cell? chunk' row := by
  rw [cell?_eq, cell?_eq, rows_modifyRows s hc]
  split
  · rename_i h
    subst h
    rw [Array.getElem?_push]
    split
    · rename_i hrow
      rw [Array.getElem?_eq_none (Nat.le_of_eq hrow.symm)]
      rfl
    · rfl
  · rfl

@[simp] theorem format_claimUpTo (s : RowStore T V) (chunk row : Nat) :
    (s.claimUpTo chunk row).format = s.format := rfl

@[simp] theorem partitions_claimUpTo (s : RowStore T V) (chunk row : Nat) :
    (s.claimUpTo chunk row).partitions = s.partitions := rfl

@[simp] theorem ids_claimUpTo (s : RowStore T V) (chunk row : Nat) :
    (s.claimUpTo chunk row).ids = s.ids := rfl

@[simp] theorem chunkCount_claimUpTo (s : RowStore T V) (chunk row : Nat) :
    (s.claimUpTo chunk row).chunkCount = s.chunkCount := Array.size_modify ..

theorem fill_claimUpTo (s : RowStore T V) {chunk : Nat} (hc : chunk < s.chunkCount)
    (row chunk' : Nat) :
    (s.claimUpTo chunk row).fill chunk' =
      if chunk' = chunk then max (s.fill chunk) (row + 1) else s.fill chunk' := by
  rw [fill_eq, fill_eq, fill_eq, claimUpTo, rows_modifyRows s hc]
  split
  · rw [Array.size_append, Array.size_replicate]
    omega
  · rfl

/-- Rows that are claimed on the way to an id are empty. -/
theorem cell?_claimUpTo (s : RowStore T V) {chunk : Nat} (hc : chunk < s.chunkCount)
    (row chunk' row' : Nat) :
    (s.claimUpTo chunk row).cell? chunk' row' = s.cell? chunk' row' := by
  rw [cell?_eq, cell?_eq, claimUpTo, rows_modifyRows s hc]
  split
  · rename_i h
    subst h
    rw [Array.getElem?_append]
    split
    · rfl
    · rename_i hrow
      rw [Array.getElem?_replicate, Array.getElem?_eq_none (Nat.le_of_not_lt hrow)]
      split <;> rfl
  · rfl

theorem fill_pop (s : RowStore T V) {chunk : Nat} (hc : chunk < s.chunkCount) (chunk' : Nat) :
    (s.modifyRows chunk Array.pop).fill chunk' =
      if chunk' = chunk then s.fill chunk - 1 else s.fill chunk' := by
  rw [fill_eq, fill_eq, fill_eq, rows_modifyRows s hc]
  split
  · rw [Array.size_pop]
  · rfl

/-- Giving up the last claimed row leaves all other rows as they are. -/
theorem cell?_pop (s : RowStore T V) {chunk : Nat} (hc : chunk < s.chunkCount)
    (chunk' row : Nat) :
    (s.modifyRows chunk Array.pop).cell? chunk' row =
      if chunk' = chunk ∧ row = s.fill chunk - 1 then none else s.cell? chunk' row := by
  rw [cell?_eq, cell?_eq, fill_eq, rows_modifyRows s hc]
  by_cases h : chunk' = chunk
  · subst h
    rw [if_pos rfl, Array.getElem?_pop]
    by_cases hr : row = (s.rows chunk').size - 1
    · rw [if_neg (by omega), if_pos ⟨rfl, hr⟩]
      rfl
    · rw [if_neg (fun hand : chunk' = chunk' ∧ _ => hr hand.2)]
      split
      · rfl
      · rw [Array.getElem?_eq_none (by omega : (s.rows chunk').size ≤ row)]
  · rw [if_neg h, if_neg (fun hand => h hand.1)]

/-! ### Partitions -/

section modifyPartition

variable (s : RowStore T V) (partition : Nat) (f : Partition T → Partition T)

@[simp] theorem format_modifyPartition : (s.modifyPartition partition f).format = s.format := rfl

@[simp] theorem ids_modifyPartition : (s.modifyPartition partition f).ids = s.ids := rfl

@[simp] theorem chunks_modifyPartition : (s.modifyPartition partition f).chunks = s.chunks := rfl

@[simp] theorem chunkCount_modifyPartition :
    (s.modifyPartition partition f).chunkCount = s.chunkCount := rfl

@[simp] theorem fill_modifyPartition (chunk : Nat) :
    (s.modifyPartition partition f).fill chunk = s.fill chunk := rfl

@[simp] theorem cell?_modifyPartition (chunk row : Nat) :
    (s.modifyPartition partition f).cell? chunk row = s.cell? chunk row := rfl

theorem partitions_modifyPartition (q : Nat) :
    (s.modifyPartition partition f).partitions[q]? =
      if q = partition then s.partitions[q]?.map f else s.partitions[q]? := by
  unfold modifyPartition
  rw [Array.getElem?_modify]
  by_cases h : q = partition
  · rw [if_pos h, if_pos h.symm]
  · rw [if_neg h, if_neg (Ne.symm h)]

theorem chain_modifyPartition (hf : ∀ p, (f p).chain = p.chain) (q : Nat) :
    (s.modifyPartition partition f).chain q = s.chain q := by
  rw [chain_eq_getD, chain_eq_getD, partitions_modifyPartition]
  split
  · cases s.partitions[q]? with
    | none => rfl
    | some p => exact congrArg Array.toList (hf p)
  · rfl

end modifyPartition

theorem freeList_setFreeIds (s : RowStore T V) {partition : Nat} {p : Partition T}
    (hp : s.partitions[partition]? = some p) (freeIds : FreeStack) (q : Nat) :
    (s.setFreeIds partition freeIds).freeList q =
      if q = partition then freeIds.toList else s.freeList q := by
  unfold freeList setFreeIds
  rw [partitions_modifyPartition]
  by_cases h : q = partition
  · rw [if_pos h, if_pos h, h, hp]
    rfl
  · rw [if_neg h, if_neg h]

@[simp] theorem chain_setFreeIds (s : RowStore T V) (partition : Nat) (freeIds : FreeStack)
    (q : Nat) : (s.setFreeIds partition freeIds).chain q = s.chain q :=
  chain_modifyPartition s partition (fun p => { p with freeIds }) (fun _ => rfl) q

@[simp] theorem chain_pushFree (s : RowStore T V) (partition : Nat) (id : SlotId) (q : Nat) :
    (s.pushFree partition id).chain q = s.chain q :=
  chain_modifyPartition s partition (fun p => { p with freeIds := (p.freeIds.push id).2 })
    (fun _ => rfl) q

/-- An accepted id lies on top of the free stack. -/
theorem freeList_pushFree (s : RowStore T V) {partition : Nat} {p : Partition T}
    (hp : s.partitions[partition]? = some p) {id : SlotId} (hid : id.isPlain = true)
    (hroom : p.freeIds.top < p.freeIds.capacity) (q : Nat) :
    (s.pushFree partition id).freeList q =
      if q = partition then id :: s.freeList q else s.freeList q := by
  unfold freeList pushFree
  rw [partitions_modifyPartition]
  by_cases h : q = partition
  · rw [if_pos h, if_pos h, h, hp]
    exact BoundedStack.push_toList (SlotId.ne_marker_of_isPlain hid) hroom
  · rw [if_neg h, if_neg h]

/-! ### Items -/

section setId

variable (s : RowStore T V) (item : Nat) (id : SlotId)

@[simp] theorem format_setId : (s.setId item id).format = s.format := rfl

@[simp] theorem chunks_setId : (s.setId item id).chunks = s.chunks := rfl

@[simp] theorem partitions_setId : (s.setId item id).partitions = s.partitions := rfl

@[simp] theorem fill_setId (chunk : Nat) : (s.setId item id).fill chunk = s.fill chunk := rfl

@[simp] theorem cell?_setId (chunk row : Nat) :
    (s.setId item id).cell? chunk row = s.cell? chunk row := rfl

@[simp] theorem itemCount_setId : (s.setId item id).ids.size = s.ids.size :=
  Array.size_setIfInBounds ..

theorem idOf_setId (item' : Nat) (hitem : item < s.ids.size) :
    (s.setId item id).idOf item' = if item' = item then id else s.idOf item' := by
  unfold idOf setId
  by_cases h : item' = item
  · subst h
    simp [hitem]
  · rw [if_neg h, Array.getElem?_setIfInBounds_ne (Ne.symm h)]

end setId

theorem idOf_newItem (s : RowStore T V) (item : Nat) : s.newItem.2.idOf item = s.idOf item := by
  unfold idOf newItem
  rw [Array.getElem?_push]
  split
  · rename_i h
    rw [h, Array.getElem?_eq_none (Nat.le_refl _)]
    rfl
  · rfl

theorem ids_dropLastItem_newItem (s : RowStore T V) : (s.ids.push 0).pop = s.ids := by simp

end ArchetypeStore.RowStore

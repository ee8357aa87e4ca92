import ArchetypeStore.Proofs.RowStore.Observe

/-! # The invariant of a row store

  Each chunk lies in the chain of one partition, and chains ascend. Each slot of a
  partition is accounted for exactly once: its row holds an item, its id is reserved, its
  id is on the free stack, or its row is above the fill index of the current chunk. Rows
  above the fill index of any other chunk lie on the free stack in the order in which they
  will be claimed again, so that claiming one never passes another.

  The list `reserved` holds the ids that were issued and have no item yet. It is no part of
  the store, which cannot tell a reserved row from a hole.
-/

namespace ArchetypeStore.RowStore

variable {T V : Type}

/-! ### Accounting -/

/-- The column types of a partition. -/
def layout? (s : RowStore T V) (partition : Nat) : Option (List T) :=
  s.partitions[partition]?.map (·.layout)

/-- How often the slot of a row is accounted for. -/
def shares (s : RowStore T V) (reserved : List SlotId) (partition chunk row : Nat) : Nat :=
  (if (s.cell? chunk row).isSome then 1 else 0) +
    reserved.count (s.format.slotId chunk row) +
    (s.freeList partition).count (s.format.slotId chunk row) +
    (if s.current? partition = some chunk ∧ s.fill chunk ≤ row then 1 else 0)

/-- The rows of a chunk among ids, in the order of the ids. -/
def rowsAmong (format : IdFormat) (chunk : Nat) (ids : List SlotId) : List Nat :=
  (ids.filter fun id => format.chunkOf id == chunk).map format.rowOf

/-- The rows of a chunk that lie on the free stack, the one to be issued next first. -/
def freeRows (s : RowStore T V) (partition chunk : Nat) : List Nat :=
  rowsAmong s.format chunk (s.freeList partition)

/-- The id lies on the free stack, and its row is below the fill index of the chunk. -/
def Hole (s : RowStore T V) (partition : Nat) (id : SlotId) : Prop :=
  id ∈ s.freeList partition ∧ s.format.rowOf id < s.fill (s.format.chunkOf id)

/-- Every chunk belongs to one chain, and chains ascend. -/
structure Chained (s : RowStore T V) : Prop where
  /-- The format came out of `IdFormat.create`. -/
  valid : s.format.Valid
  /-- No more chunks than numbers for them. -/
  chunkCount_le : s.chunkCount ≤ s.format.maxChunks
  /-- No chunk claims more rows than it has. -/
  fill_le : ∀ chunk, s.fill chunk ≤ s.format.rowsPerChunk
  /-- Chunks are made in the order of their numbers. -/
  ascending : ∀ partition, (s.chain partition).Pairwise (· < ·)
  /-- Every partition has a current chunk. -/
  chain_ne_nil : ∀ partition, (s.layout? partition).isSome → s.chain partition ≠ []
  chain_lt : ∀ partition, ∀ chunk ∈ s.chain partition, chunk < s.chunkCount
  /-- No chunk belongs to two partitions. -/
  chain_disjoint : ∀ p q, ∀ chunk ∈ s.chain p, chunk ∈ s.chain q → p = q
  chunk_owned : ∀ chunk, chunk < s.chunkCount → ∃ partition, chunk ∈ s.chain partition

/-- No free stack holds more ids than it has room for. -/
def FreeFits (s : RowStore T V) : Prop :=
  ∀ (partition : Nat) (p : Partition T), s.partitions[partition]? = some p →
    p.freeIds.top ≤ p.freeIds.capacity

/-- The invariant, for the ids that were issued and have no item yet. -/
structure Sound (s : RowStore T V) (reserved : List SlotId) : Prop extends Chained s where
  room : s.FreeFits
  /-- Free ids name slots of the partition. -/
  free_slot : ∀ partition, ∀ id ∈ s.freeList partition, ∃ chunk ∈ s.chain partition,
    ∃ row, row < s.format.rowsPerChunk ∧ id = s.format.slotId chunk row
  /-- Reserved ids name claimed rows. -/
  reserved_slot : ∀ id ∈ reserved, ∃ chunk row, row < s.fill chunk ∧
    id = s.format.slotId chunk row
  /-- Every slot is accounted for once. -/
  shares_one : ∀ partition, ∀ chunk ∈ s.chain partition, ∀ row, row < s.format.rowsPerChunk →
    s.shares reserved partition chunk row = 1
  /-- Behind the fill index of an old chunk, rows are issued in ascending order. -/
  stacked : ∀ partition, ∀ chunk ∈ s.chain partition, s.current? partition ≠ some chunk →
    (s.freeRows partition chunk).filter (fun row => decide (s.fill chunk ≤ row)) =
      List.range' (s.fill chunk) (s.format.rowsPerChunk - s.fill chunk)

theorem rowsAmong_cons_self {format : IdFormat} {chunk : Nat} {id : SlotId}
    (h : format.chunkOf id = chunk) (ids : List SlotId) :
    rowsAmong format chunk (id :: ids) = format.rowOf id :: rowsAmong format chunk ids := by
  simp [rowsAmong, h]

theorem rowsAmong_cons_ne {format : IdFormat} {chunk : Nat} {id : SlotId}
    (h : format.chunkOf id ≠ chunk) (ids : List SlotId) :
    rowsAmong format chunk (id :: ids) = rowsAmong format chunk ids := by
  simp [rowsAmong, h]

theorem mem_rowsAmong {format : IdFormat} {chunk row : Nat} {ids : List SlotId} :
    row ∈ rowsAmong format chunk ids ↔ ∃ id ∈ ids, format.chunkOf id = chunk ∧
      format.rowOf id = row := by
  simp only [rowsAmong, List.mem_map, List.mem_filter, beq_iff_eq, and_assoc]

/-! ### Slots -/

namespace Chained

variable {s : RowStore T V} (h : Chained s)

include h

theorem lt_maxChunks {chunk : Nat} (hc : chunk < s.chunkCount) : chunk < s.format.maxChunks :=
  Nat.lt_of_lt_of_le hc h.chunkCount_le

theorem lt_rowsPerChunk {chunk row : Nat} (hr : row < s.fill chunk) :
    row < s.format.rowsPerChunk :=
  Nat.lt_of_lt_of_le hr (h.fill_le chunk)

theorem chunkOf_slotId {chunk row : Nat} (hc : chunk < s.chunkCount)
    (hr : row < s.format.rowsPerChunk) : s.format.chunkOf (s.format.slotId chunk row) = chunk :=
  IdFormat.chunkOf_slotId h.valid (h.lt_maxChunks hc) hr

theorem rowOf_slotId {chunk row : Nat} (hc : chunk < s.chunkCount)
    (hr : row < s.format.rowsPerChunk) : s.format.rowOf (s.format.slotId chunk row) = row :=
  IdFormat.rowOf_slotId h.valid (h.lt_maxChunks hc) hr

theorem slotId_isPlain {chunk row : Nat} (hc : chunk < s.chunkCount)
    (hr : row < s.format.rowsPerChunk) : (s.format.slotId chunk row).isPlain = true :=
  IdFormat.slotId_isPlain h.valid (h.lt_maxChunks hc) hr

/-- Ids of rows of the store name them one to one. -/
theorem slotId_eq_iff {chunk row chunk' row' : Nat} (hc : chunk < s.chunkCount)
    (hr : row < s.format.rowsPerChunk) (hc' : chunk' < s.chunkCount)
    (hr' : row' < s.format.rowsPerChunk) :
    s.format.slotId chunk row = s.format.slotId chunk' row' ↔ chunk = chunk' ∧ row = row' := by
  constructor
  · exact IdFormat.slotId_inj h.valid (h.lt_maxChunks hc) hr (h.lt_maxChunks hc') hr'
  · rintro ⟨rfl, rfl⟩
    rfl

/-- The partition of a chunk is the only one with the chunk in its chain. -/
theorem partition_unique {p q chunk : Nat} (hp : chunk ∈ s.chain p) (hq : chunk ∈ s.chain q) :
    q = p :=
  h.chain_disjoint q p chunk hq hp

/-- An id is found in a partition exactly when it names one of its claimed rows. -/
theorem locate_eq_some_iff {partition : Nat} {id : SlotId} {place : Nat × Nat} :
    s.locate partition id = some place ↔
      place = (s.format.chunkOf id, s.format.rowOf id) ∧ place.1 ∈ s.chain partition ∧
        place.2 < s.fill place.1 := by
  unfold locate
  cases hp : s.partitions[partition]? with
  | none => simp [chain_of_none hp]
  | some p =>
    have hsorted : Ascending p.chain := by
      have := h.ascending partition
      rwa [chain_eq hp] at this
    simp only [Partition.owns_iff hsorted, chain_eq hp]
    constructor
    · intro hsome
      split at hsome
      · rename_i hcond
        cases hsome
        exact ⟨rfl, hcond⟩
      · cases hsome
    · rintro ⟨rfl, hmem, hlt⟩
      rw [if_pos ⟨hmem, hlt⟩]

/-- The id of a claimed row leads to the row. -/
theorem locate_slotId {partition chunk row : Nat} (hc : chunk ∈ s.chain partition)
    (hr : row < s.fill chunk) :
    s.locate partition (s.format.slotId chunk row) = some (chunk, row) := by
  have hlt := h.chain_lt partition chunk hc
  have hrow := h.lt_rowsPerChunk hr
  rw [h.locate_eq_some_iff, h.chunkOf_slotId hlt hrow, h.rowOf_slotId hlt hrow]
  exact ⟨rfl, hc, hr⟩

end Chained

namespace Sound

variable {s : RowStore T V} {reserved : List SlotId} (h : Sound s reserved)

include h

/-- A row with an item is neither reserved nor free. -/
theorem not_free_of_published {partition chunk row : Nat} {cell : Cell V}
    (hc : chunk ∈ s.chain partition) (hcell : s.cell? chunk row = some cell) :
    s.format.slotId chunk row ∉ reserved ∧
      s.format.slotId chunk row ∉ s.freeList partition := by
  have hrow := h.lt_rowsPerChunk (lt_fill_of_cell? hcell)
  have hone := h.shares_one partition chunk hc row hrow
  rw [shares, hcell] at hone
  simp only [Option.isSome_some, if_true] at hone
  -- The item takes the whole share of the slot.
  rw [← List.count_eq_zero, ← List.count_eq_zero]
  omega

/-- A free row is empty, not reserved, and claimed if its chunk is current. -/
theorem of_free {partition chunk row : Nat} (hc : chunk ∈ s.chain partition)
    (hr : row < s.format.rowsPerChunk)
    (hfree : s.format.slotId chunk row ∈ s.freeList partition) :
    s.cell? chunk row = none ∧ s.format.slotId chunk row ∉ reserved ∧
      (s.current? partition = some chunk → row < s.fill chunk) := by
  have hone := h.shares_one partition chunk hc row hr
  have hcount := List.one_le_count_iff.mpr hfree
  unfold shares at hone
  refine ⟨?_, ?_, ?_⟩
  · cases hcell : s.cell? chunk row with
    | none => rfl
    | some cell =>
      rw [hcell] at hone
      simp only [Option.isSome_some, if_true] at hone
      omega
  · rw [← List.count_eq_zero]
    omega
  · intro hcurrent
    apply Nat.lt_of_not_le
    intro hle
    have hboth : s.current? partition = some chunk ∧ s.fill chunk ≤ row := ⟨hcurrent, hle⟩
    rw [if_pos hboth] at hone
    omega

/-- A reserved row is empty. -/
theorem cell?_of_reserved {partition chunk row : Nat} (hc : chunk ∈ s.chain partition)
    (hres : s.format.slotId chunk row ∈ reserved) :
    s.cell? chunk row = none := by
  cases hcell : s.cell? chunk row with
  | none => rfl
  | some cell => exact absurd hres (h.not_free_of_published hc hcell).1

/-- A reserved slot is a claimed row of some partition. -/
theorem of_reserved {id : SlotId} (hid : id ∈ reserved) :
    ∃ partition, ∃ chunk ∈ s.chain partition, ∃ row, row < s.fill chunk ∧
      id = s.format.slotId chunk row := by
  obtain ⟨chunk, row, hrow, rfl⟩ := h.reserved_slot id hid
  obtain ⟨partition, hc⟩ := h.chunk_owned chunk (lt_chunkCount_of_lt_fill hrow)
  exact ⟨partition, chunk, hc, row, hrow, rfl⟩

end Sound

/-! ### Stores with the same chains -/

/-- The two stores differ at most in rows, free stacks and id words. -/
structure SameChains (s s' : RowStore T V) : Prop where
  format : s'.format = s.format
  chunkCount : s'.chunkCount = s.chunkCount
  layout : ∀ partition, s'.layout? partition = s.layout? partition
  chain : ∀ partition, s'.chain partition = s.chain partition

namespace SameChains

theorem refl (s : RowStore T V) : SameChains s s := ⟨rfl, rfl, fun _ => rfl, fun _ => rfl⟩

theorem trans {s s' s'' : RowStore T V} (h : SameChains s s') (h' : SameChains s' s'') :
    SameChains s s'' :=
  ⟨h'.format.trans h.format, h'.chunkCount.trans h.chunkCount,
    fun q => (h'.layout q).trans (h.layout q), fun q => (h'.chain q).trans (h.chain q)⟩

theorem current? {s s' : RowStore T V} (h : SameChains s s') (partition : Nat) :
    s'.current? partition = s.current? partition := by
  rw [current?_eq_getLast?, current?_eq_getLast?, h.chain]

/-- Chains do not depend on what was claimed, as long as no chunk is overfull. -/
theorem chained {s s' : RowStore T V} (h : SameChains s s') (hs : Chained s)
    (hfill : ∀ c, s'.fill c ≤ s.format.rowsPerChunk) : Chained s' := by
  refine ⟨?_, ?_, ?_, ?_, ?_, ?_, ?_, ?_⟩
  · rw [h.format]
    exact hs.valid
  · rw [h.format, h.chunkCount]
    exact hs.chunkCount_le
  · simpa only [h.format] using hfill
  · simpa only [h.chain] using hs.ascending
  · simpa only [h.layout, h.chain] using hs.chain_ne_nil
  · simpa only [h.chain, h.chunkCount] using hs.chain_lt
  · simpa only [h.chain] using hs.chain_disjoint
  · simpa only [h.chain, h.chunkCount] using hs.chunk_owned

theorem modifyRows (s : RowStore T V) (chunk : Nat)
    (f : Array (Option (Cell V)) → Array (Option (Cell V))) :
    SameChains s (s.modifyRows chunk f) :=
  ⟨rfl, chunkCount_modifyRows .., fun _ => rfl, fun _ => rfl⟩

theorem modifyPartition (s : RowStore T V) (partition : Nat) (f : Partition T → Partition T)
    (hchain : ∀ p, (f p).chain = p.chain) (hlayout : ∀ p, (f p).layout = p.layout) :
    SameChains s (s.modifyPartition partition f) := by
  refine ⟨rfl, rfl, fun q => ?_, chain_modifyPartition s partition f hchain⟩
  unfold layout?
  rw [partitions_modifyPartition]
  split
  · cases s.partitions[q]? with
    | none => rfl
    | some p => exact congrArg some (hlayout p)
  · rfl

theorem setFreeIds (s : RowStore T V) (partition : Nat) (freeIds : FreeStack) :
    SameChains s (s.setFreeIds partition freeIds) :=
  modifyPartition s partition (fun p => { p with freeIds }) (fun _ => rfl) (fun _ => rfl)

theorem pushFree (s : RowStore T V) (partition : Nat) (id : SlotId) :
    SameChains s (s.pushFree partition id) :=
  modifyPartition s partition (fun p => { p with freeIds := (p.freeIds.push id).2 })
    (fun _ => rfl) (fun _ => rfl)

theorem setId (s : RowStore T V) (item : Nat) (id : SlotId) :
    SameChains s (s.setId item id) :=
  ⟨rfl, rfl, fun _ => rfl, fun _ => rfl⟩

theorem withMemory (s : RowStore T V) (memory : Memory) : SameChains s (s.withMemory memory) :=
  ⟨rfl, rfl, fun _ => rfl, fun _ => rfl⟩

end SameChains

theorem FreeFits.setFreeIds {s : RowStore T V} (hfits : s.FreeFits) (partition : Nat)
    {freeIds : FreeStack} (hroom : freeIds.top ≤ freeIds.capacity) :
    (s.setFreeIds partition freeIds).FreeFits := by
  intro q p hp
  rw [RowStore.setFreeIds, partitions_modifyPartition] at hp
  split at hp
  · obtain ⟨p', -, rfl⟩ := Option.map_eq_some_iff.mp hp
    exact hroom
  · exact hfits q p hp

/-- A store that looks the same, but for what its rows hold, is as sound. -/
theorem Sound.congr {s s' : RowStore T V} {reserved : List SlotId} (h : Sound s reserved)
    (hsame : SameChains s s') (hfill : ∀ c, s'.fill c = s.fill c)
    (hcell : ∀ c r, (s'.cell? c r).isSome = (s.cell? c r).isSome)
    (hfree : ∀ q, s'.freeList q = s.freeList q) (hroom : s'.FreeFits) : Sound s' reserved := by
  have hchained : Chained s' := hsame.chained h.toChained fun c => by
    rw [hfill]
    exact h.fill_le c
  refine ⟨hchained, hroom, ?_, ?_, ?_, ?_⟩
  -- Every clause is about parts that the two stores have in common.
  · simpa only [hfree, hsame.chain, hsame.format] using h.free_slot
  · simpa only [hfill, hsame.format] using h.reserved_slot
  · simpa only [shares, hsame.chain, hsame.format, hcell, hfree, hsame.current?, hfill] using
      h.shares_one
  · simpa only [freeRows, hsame.chain, hsame.current?, hfree, hfill, hsame.format] using
      h.stacked

/-- How memory answers does not show in what is stored. -/
theorem Sound.withMemory {s : RowStore T V} {reserved : List SlotId} (h : Sound s reserved)
    (memory : Memory) : Sound (s.withMemory memory) reserved :=
  h.congr (.withMemory s memory) (fun _ => rfl) (fun _ _ => rfl) (fun _ => rfl) h.room

/-- A store without chunks is sound. -/
theorem empty_sound {format : IdFormat} (h : format.Valid) :
    Sound (.empty format : RowStore T V) [] := by
  have hchain : ∀ q, (empty format : RowStore T V).chain q = [] := fun _ => rfl
  have hfree : ∀ q, (empty format : RowStore T V).freeList q = [] := fun _ => rfl
  have hfill : ∀ c, (empty format : RowStore T V).fill c = 0 := fun _ => rfl
  refine ⟨⟨h, Nat.zero_le _, ?_, ?_, ?_, ?_, ?_, ?_⟩, ?_, ?_, ?_, ?_, ?_⟩
  · intro c
    rw [hfill]
    exact Nat.zero_le _
  · intro q
    rw [hchain]
    exact List.Pairwise.nil
  · intro q hq
    cases hq
  · intro q c hc
    rw [hchain] at hc
    cases hc
  · intro p q c hc
    rw [hchain] at hc
    cases hc
  · intro c hc
    exact absurd hc (Nat.not_lt_zero c)
  · intro q p hp
    cases hp
  · intro q id hid
    rw [hfree] at hid
    cases hid
  · intro id hid
    cases hid
  · intro q c hc
    rw [hchain] at hc
    cases hc
  · intro q c hc
    rw [hchain] at hc
    cases hc

end ArchetypeStore.RowStore

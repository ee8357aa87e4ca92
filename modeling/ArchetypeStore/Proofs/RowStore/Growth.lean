import ArchetypeStore.Proofs.RowStore.Transfer

/-! # What growth does

  A new chunk adds no claimed row and moves no item, so all that is seen of the store is a
  longer chain. Growth fails when all chunk numbers are in use or when the memory of a
  chunk cannot be obtained, and then changes nothing.
-/

namespace ArchetypeStore

namespace RowStore

variable {T V : Type}

theorem allocateChunk_refused [ComponentType T] {m : Memory} {capacity : Nat} {layout : List T}
    {e : StoreError} (h : allocateChunk m capacity layout = .error e) : e.OfMemory := by
  induction layout with
  | nil =>
    unfold allocateChunk at h
    cases hblock : Buffer.reserve m .items .bits64 capacity with
    | error e' =>
      rw [hblock] at h
      cases h
      exact Buffer.reserve_refused hblock
    | ok block =>
      rw [hblock] at h
      cases h
  | cons t rest ih =>
    unfold allocateChunk at h
    cases hcolumn : ComponentType.allocateColumn m t capacity with
    | error e' =>
      rw [hcolumn] at h
      cases h
      exact ComponentType.allocateColumn_refused hcolumn
    | ok block =>
      rw [hcolumn] at h
      exact ih h

/-! ### New chunks -/

theorem rows_modifyChunk (s : RowStore T V) (chunk : Nat) {f : Chunk T V → Chunk T V}
    (hf : ∀ c, (f c).rows = c.rows) (chunk' : Nat) :
    (s.modifyChunk chunk f).rows chunk' = s.rows chunk' := by
  unfold rows modifyChunk
  rw [Array.getElem?_modify]
  split
  · cases s.chunks[chunk']? with
    | none => rfl
    | some c => exact hf c
  · rfl

theorem rows_linkNext (s : RowStore T V) (previous : Option Nat) (next chunk : Nat) :
    (s.linkNext previous next).rows chunk = s.rows chunk := by
  cases previous with
  | none => rfl
  | some previous =>
    have hkeeps : ∀ c : Chunk T V, { c with next := c.next.or (some next) }.rows = c.rows :=
      fun _ => rfl
    exact rows_modifyChunk s previous hkeeps chunk

@[simp] theorem chunkCount_linkNext (s : RowStore T V) (previous : Option Nat) (next : Nat) :
    (s.linkNext previous next).chunkCount = s.chunkCount := by
  cases previous with
  | none => rfl
  | some previous => exact Array.size_modify ..

@[simp] theorem format_linkNext (s : RowStore T V) (previous : Option Nat) (next : Nat) :
    (s.linkNext previous next).format = s.format := by
  cases previous <;> rfl

@[simp] theorem partitions_linkNext (s : RowStore T V) (previous : Option Nat) (next : Nat) :
    (s.linkNext previous next).partitions = s.partitions := by
  cases previous <;> rfl

@[simp] theorem ids_linkNext (s : RowStore T V) (previous : Option Nat) (next : Nat) :
    (s.linkNext previous next).ids = s.ids := by
  cases previous <;> rfl

/-- An empty chunk behind all others has no rows, as before. -/
theorem rows_addChunk (s : RowStore T V) {chunk : Chunk T V} (hempty : chunk.rows = #[])
    (chunk' : Nat) : (s.addChunk chunk).rows chunk' = s.rows chunk' := by
  unfold rows addChunk
  rw [Array.getElem?_push]
  split
  · rename_i h
    rw [h, Array.getElem?_eq_none (Nat.le_refl _)]
    exact hempty
  · rfl

variable [ComponentType T]

/-- Why a partition with these columns could not grow. -/
def CannotGrow (s : RowStore T V) (layout : List T) (e : StoreError) : Prop :=
  (e = .chunkCapacityExhausted s.format.maxChunks ∧ s.format.maxChunks ≤ s.chunkCount) ∨
    allocateChunk s.memory s.format.rowsPerChunk layout = .error e

theorem CannotGrow.stopsGrowth {s : RowStore T V} {layout : List T} {e : StoreError}
    (h : s.CannotGrow layout e) : e.StopsGrowth := by
  rcases h with ⟨rfl, -⟩ | h
  · exact .inl rfl
  · exact (allocateChunk_refused h).stopsGrowth

/-- What is seen of a store with one more chunk. -/
structure AddsChunk (s s' : RowStore T V) : Prop where
  spare : s.chunkCount < s.format.maxChunks
  format : s'.format = s.format
  chunkCount : s'.chunkCount = s.chunkCount + 1
  rows : ∀ chunk, s'.rows chunk = s.rows chunk
  ids : s'.ids = s.ids

omit [ComponentType T] in
theorem AddsChunk.fill {s s' : RowStore T V} (h : AddsChunk s s') (chunk : Nat) :
    s'.fill chunk = s.fill chunk := by rw [fill_eq, fill_eq, h.rows]

omit [ComponentType T] in
theorem AddsChunk.cell? {s s' : RowStore T V} (h : AddsChunk s s') (chunk row : Nat) :
    s'.cell? chunk row = s.cell? chunk row := by rw [cell?_eq, cell?_eq, h.rows]

theorem newChunk_error {s s' : RowStore T V} {layout : List T} {previous : Option Nat}
    {e : StoreError} (h : s.newChunk layout previous = (.error e, s')) :
    s' = s ∧ s.CannotGrow layout e := by
  unfold newChunk at h
  split at h
  · rename_i hfull
    cases h
    exact ⟨rfl, .inl ⟨rfl, hfull⟩⟩
  · split at h
    · rename_i e' halloc
      cases h
      exact ⟨rfl, .inr halloc⟩
    · cases h

theorem newChunk_ok {s s' : RowStore T V} {layout : List T} {previous : Option Nat}
    {chunk : Nat} (h : s.newChunk layout previous = (.ok chunk, s')) :
    chunk = s.chunkCount ∧ allocateChunk s.memory s.format.rowsPerChunk layout = .ok () ∧
      s'.partitions = s.partitions ∧ AddsChunk s s' := by
  unfold newChunk at h
  split at h
  · cases h
  · rename_i hspare
    split at h
    · cases h
    · rename_i halloc
      cases h
      refine ⟨rfl, halloc, partitions_linkNext .., ?_⟩
      refine ⟨Nat.lt_of_not_le hspare, format_linkNext .., ?_, ?_, ids_linkNext ..⟩
      · exact (Array.size_push ..).trans (congrArg (· + 1) (chunkCount_linkNext ..))
      · intro c
        rw [rows_addChunk _ rfl, rows_linkNext]

/-! ### New partitions -/

/-- A partition that could not be made leaves the store as it was. -/
theorem newPartition_error {s s' : RowStore T V} {layout : List T} {e : StoreError}
    (h : s.newPartition layout = (.error e, s')) : s' = s ∧ s.CannotGrow layout e := by
  unfold newPartition at h
  split at h
  · rename_i e' s₁ hchunk
    cases h
    exact newChunk_error hchunk
  · rw [BoundedStack.allocate_zero] at h
    cases h

/-- A new partition has the next number, one empty chunk and no free ids; what was there
before stays. -/
theorem newPartition_ok {s s' : RowStore T V} {layout : List T} {partition : Nat}
    (h : s.newPartition layout = (.ok partition, s')) :
    partition = s.partitions.size ∧ allocateChunk s.memory s.format.rowsPerChunk layout = .ok () ∧
      AddsChunk s s' ∧ s'.partitions =
        s.partitions.push ⟨layout, #[s.chunkCount], BoundedStack.ofCapacity 0⟩ := by
  unfold newPartition at h
  split at h
  · cases h
  · rename_i chunk s₁ hchunk
    rw [BoundedStack.allocate_zero] at h
    cases h
    obtain ⟨rfl, halloc, hpartitions, hadds⟩ := newChunk_ok hchunk
    refine ⟨congrArg Array.size hpartitions, halloc, ?_, ?_⟩
    · exact ⟨hadds.spare, hadds.format, hadds.chunkCount, hadds.rows, hadds.ids⟩
    · rw [hpartitions]

section newPartition

variable {s s' : RowStore T V} {layout : List T} {partition : Nat}
  (h : s.newPartition layout = (.ok partition, s'))

include h

theorem getElem?_newPartition (q : Nat) :
    s'.partitions[q]? = if q = partition then
      some ⟨layout, #[s.chunkCount], BoundedStack.ofCapacity 0⟩ else s.partitions[q]? := by
  obtain ⟨rfl, -, -, hpartitions⟩ := newPartition_ok h
  rw [hpartitions, Array.getElem?_push]

theorem layout?_newPartition (q : Nat) :
    s'.layout? q = if q = partition then some layout else s.layout? q := by
  unfold layout?
  rw [getElem?_newPartition h]
  split <;> rfl

theorem chain_newPartition (q : Nat) :
    s'.chain q = if q = partition then [s.chunkCount] else s.chain q := by
  rw [chain_eq_getD, chain_eq_getD, getElem?_newPartition h]
  split <;> rfl

theorem newPartition_sound {reserved : List SlotId} (hs : Sound s reserved) :
    Sound s' reserved := by
  obtain ⟨hsize, -, hadds, -⟩ := newPartition_ok h
  have hnone : s.partitions[partition]? = none := by
    rw [hsize]
    exact Array.getElem?_eq_none (Nat.le_refl _)
  have hfull : ∀ c, s.current? partition = some c → s.fill c = s.format.rowsPerChunk := by
    intro c hc
    rw [current?_eq_getLast?, chain_of_none hnone] at hc
    cases hc
  refine hs.addChunk hadds.spare hfull hadds.format hadds.chunkCount ?_ ?_ hadds.fill
    hadds.cell? ?_ ?_
  · intro q hq
    rw [layout?_newPartition h] at hq
    by_cases heq : q = partition
    · exact .inl heq
    · rw [if_neg heq] at hq
      exact .inr hq
  · intro q
    rw [chain_newPartition h]
    split
    · rename_i heq
      rw [heq, chain_of_none hnone]
      rfl
    · rfl
  · intro q
    unfold freeList
    rw [getElem?_newPartition h]
    split
    · rename_i heq
      rw [heq, hnone]
      rfl
    · rfl
  · intro q p hp
    rw [getElem?_newPartition h] at hp
    split at hp
    · cases hp
      exact Nat.le_refl _
    · exact hs.room q p hp

end newPartition

/-! ### Extending a partition -/

theorem extend_error {s s' : RowStore T V} {partition : Nat} {p : Partition T}
    (hp : s.partitions[partition]? = some p) {e : StoreError}
    (h : s.extend partition = (.error e, s')) : s' = s ∧ s.CannotGrow p.layout e := by
  unfold extend at h
  rw [hp] at h
  simp only at h
  split at h
  · rename_i e' s₁ hchunk
    cases h
    exact newChunk_error hchunk
  · cases h

section answers

variable {s : RowStore T V} {partition : Nat} {layout : List T}
  (hlayout : s.layout? partition = some layout)

include hlayout

theorem extend_of_exhausted (hmax : s.format.maxChunks ≤ s.chunkCount) :
    s.extend partition = (.error (.chunkCapacityExhausted s.format.maxChunks), s) := by
  obtain ⟨p, hp, rfl⟩ := Option.map_eq_some_iff.mp hlayout
  simp only [extend, hp, newChunk, if_pos hmax]

theorem extend_of_refused (hspare : s.chunkCount < s.format.maxChunks) {e : StoreError}
    (halloc : allocateChunk s.memory s.format.rowsPerChunk layout = .error e) :
    s.extend partition = (.error e, s) := by
  obtain ⟨p, hp, rfl⟩ := Option.map_eq_some_iff.mp hlayout
  simp only [extend, hp, newChunk, if_neg (Nat.not_le_of_lt hspare), halloc]

theorem extend_of_allocated (hspare : s.chunkCount < s.format.maxChunks)
    (halloc : allocateChunk s.memory s.format.rowsPerChunk layout = .ok ()) :
    ∃ s', s.extend partition = (.ok (), s') := by
  obtain ⟨p, hp, rfl⟩ := Option.map_eq_some_iff.mp hlayout
  simp only [extend, hp, newChunk, if_neg (Nat.not_le_of_lt hspare), halloc]
  exact ⟨_, rfl⟩

end answers

/-- An extension that is refused changes nothing. -/
theorem extend_refused {s s' : RowStore T V} {partition : Nat} {e : StoreError}
    (h : s.extend partition = (.error e, s')) : s' = s := by
  cases hp : s.partitions[partition]? with
  | none =>
    simp only [extend, hp] at h
    cases h
    rfl
  | some p => exact (extend_error hp h).1

/-- What is seen of a store in which one partition got a new current chunk. -/
theorem extend_adds {s s' : RowStore T V} {partition : Nat}
    (h : s.extend partition = (.ok (), s')) :
    AddsChunk s s' ∧ (∀ q, s'.layout? q = s.layout? q) ∧
      (∀ q, s'.chain q =
        if q = partition then s.chain q ++ [s.chunkCount] else s.chain q) ∧
      (∀ q, s'.freeList q = s.freeList q) ∧ (s.FreeFits → s'.FreeFits) := by
  cases hp : s.partitions[partition]? with
  | none =>
    simp only [extend, hp] at h
    cases h
  | some p =>
    unfold extend at h
    rw [hp] at h
    simp only at h
    split at h
    · cases h
    · rename_i chunk s₁ hchunk
      cases h
      obtain ⟨rfl, -, hpartitions, hadds⟩ := newChunk_ok hchunk
      have hget : ∀ q, (s₁.modifyPartition partition fun p =>
          { p with chain := p.chain.push s.chunkCount }).partitions[q]? =
            if q = partition then
              some { p with chain := p.chain.push s.chunkCount } else s.partitions[q]? := by
        intro q
        rw [partitions_modifyPartition, hpartitions]
        split
        · rename_i heq
          rw [heq, hp]
          rfl
        · rfl
      refine ⟨⟨hadds.spare, hadds.format, hadds.chunkCount, hadds.rows, hadds.ids⟩, ?_, ?_, ?_, ?_⟩
      -- All but the chain of the partition is read off as before.
      · intro q
        unfold layout?
        rw [hget]
        split
        · rename_i heq
          rw [heq, hp]
          rfl
        · rfl
      · intro q
        rw [chain_eq_getD, chain_eq_getD, hget]
        split
        · rename_i heq
          rw [heq, hp]
          exact Array.toList_push
        · rfl
      · intro q
        unfold freeList
        rw [hget]
        split
        · rename_i heq
          rw [heq, hp]
          rfl
        · rfl
      · intro hfits q p' hp'
        rw [hget] at hp'
        split at hp'
        · cases hp'
          exact hfits partition p hp
        · exact hfits q p' hp'

/-- A full partition gets an empty current chunk. -/
theorem extend_ok {s s' : RowStore T V} {reserved : List SlotId} (hs : Sound s reserved)
    {partition : Nat}
    (hfull : ∀ c, s.current? partition = some c → s.fill c = s.format.rowsPerChunk)
    (h : s.extend partition = (.ok (), s')) :
    Sound s' reserved ∧ AddsChunk s s' ∧ (∀ q, s'.layout? q = s.layout? q) ∧
      (∀ q, s'.chain q =
        if q = partition then s.chain q ++ [s.chunkCount] else s.chain q) ∧
      (∀ q, s'.freeList q = s.freeList q) := by
  obtain ⟨hadds, hlayout, hchain, hfree, hroom⟩ := extend_adds h
  refine ⟨?_, hadds, hlayout, hchain, hfree⟩
  refine hs.addChunk hadds.spare hfull hadds.format hadds.chunkCount ?_ hchain hadds.fill
    hadds.cell? hfree (hroom hs.room)
  intro q hq
  rw [hlayout] at hq
  exact .inr hq

end RowStore

end ArchetypeStore

import ArchetypeStore.Proofs.RowStore.Calls
import ArchetypeStore.Proofs.RowStore.Removal

/-! # The registry of chunks

  The registry is what a store knows of its chunks but for their rows: how many there are,
  their columns, the chain each one stands in and the links between them. Most operations
  leave it alone. The others make one chunk and link it behind the last one of a chain.

  Nothing is assumed of the callers here: ids may be registered that were never issued.
-/

namespace ArchetypeStore

/-- A chunk without its rows: its columns and its links. -/
def Chunk.bare {T V : Type} (c : Chunk T V) : Chunk T V := { c with rows := #[] }

namespace RowStore

variable {T V : Type} {s s' s'' : RowStore T V} {partition : Nat}

/-- The columns and the links of a chunk. -/
def bare? (s : RowStore T V) (chunk : Nat) : Option (Chunk T V) :=
  s.chunks[chunk]?.map Chunk.bare

/-! ### Changes that leave the registry alone -/

/-- No chunk was made or linked, and no chain was changed. -/
structure SameRegistry (s s' : RowStore T V) : Prop extends SameChains s s' where
  bare : ∀ chunk, s'.bare? chunk = s.bare? chunk

theorem SameRegistry.trans (h : SameRegistry s s') (h' : SameRegistry s' s'') :
    SameRegistry s s'' :=
  ⟨h.toSameChains.trans h'.toSameChains, fun c => (h'.bare c).trans (h.bare c)⟩

/-- The registry is the same, no chunk is overfull that was not, and what was freed names
chunks of its partition. -/
structure Quiet (s s' : RowStore T V) : Prop extends SameRegistry s s' where
  fill_le : (∀ c, s.fill c ≤ s.format.rowsPerChunk) → ∀ c, s'.fill c ≤ s.format.rowsPerChunk
  free : ∀ q, ∀ id ∈ s'.freeList q, id ∈ s.freeList q ∨ s.format.chunkOf id ∈ s.chain q

theorem bare?_modifyRows (s : RowStore T V) (chunk : Nat)
    (f : Array (Option (Cell V)) → Array (Option (Cell V))) (chunk' : Nat) :
    (s.modifyRows chunk f).bare? chunk' = s.bare? chunk' := by
  unfold bare? modifyRows modifyChunk
  rw [Array.getElem?_modify]
  split
  · cases s.chunks[chunk']? <;> rfl
  · rfl

namespace Quiet

theorem refl (s : RowStore T V) : Quiet s s :=
  ⟨⟨.refl s, fun _ => rfl⟩, fun h => h, fun _ _ h => .inl h⟩

theorem trans (h : Quiet s s') (h' : Quiet s' s'') : Quiet s s'' := by
  refine ⟨h.toSameRegistry.trans h'.toSameRegistry, fun hle => ?_, fun q id hid => ?_⟩
  · have := h'.fill_le (by simpa only [h.format] using h.fill_le hle)
    simpa only [h.format] using this
  · rcases h'.free q id hid with hid | hid
    · exact h.free q id hid
    · right
      rwa [h.format, h.chain] at hid

theorem modifyRows (s : RowStore T V) (chunk : Nat)
    {f : Array (Option (Cell V)) → Array (Option (Cell V))}
    (hf : s.fill chunk ≤ s.format.rowsPerChunk →
      (f (s.rows chunk)).size ≤ s.format.rowsPerChunk) : Quiet s (s.modifyRows chunk f) := by
  refine ⟨⟨.modifyRows s chunk f, bare?_modifyRows s chunk f⟩, fun hle c => ?_,
    fun q id hid => .inl hid⟩
  rcases Nat.lt_or_ge chunk s.chunkCount with hc | hc
  · rw [fill_eq, rows_modifyRows s hc]
    split
    · exact hf (hle chunk)
    · rw [← fill_eq]
      exact hle c
  -- A chunk that there is not cannot be changed.
  · have hsame : (s.modifyRows chunk f).fill c = s.fill c := by
      unfold fill RowStore.modifyRows modifyChunk
      rw [Array.getElem?_modify]
      split
      · rename_i heq
        rw [← heq, Array.getElem?_eq_none hc]
        rfl
      · rfl
    rw [hsame]
    exact hle c

theorem setCell (s : RowStore T V) (chunk row : Nat) (cell : Option (Cell V)) :
    Quiet s (s.setCell chunk row cell) := by
  refine modifyRows s chunk fun hle => ?_
  rw [Array.size_setIfInBounds, ← fill_eq]
  exact hle

theorem withIds (s : RowStore T V) (ids : Array SlotId) : Quiet s { s with ids } :=
  ⟨⟨⟨rfl, rfl, fun _ => rfl, fun _ => rfl⟩, fun _ => rfl⟩, fun h => h, fun _ _ h => .inl h⟩

theorem setId (s : RowStore T V) (item : Nat) (id : SlotId) : Quiet s (s.setId item id) :=
  .withIds s _

theorem newItem (s : RowStore T V) : Quiet s s.newItem.2 := .withIds s _

theorem withMemory (s : RowStore T V) (memory : Memory) : Quiet s (s.withMemory memory) :=
  ⟨⟨.withMemory s memory, fun _ => rfl⟩, fun h => h, fun _ _ h => .inl h⟩

theorem setFreeIds {p : Partition T} (hp : s.partitions[partition]? = some p)
    {freeIds : FreeStack} (hsub : ∀ id ∈ freeIds.toList, id ∈ p.freeIds.toList) :
    Quiet s (s.setFreeIds partition freeIds) := by
  refine ⟨⟨.setFreeIds s partition freeIds, fun _ => rfl⟩, fun h => h, fun q id hid => .inl ?_⟩
  rw [freeList_setFreeIds s hp] at hid
  split at hid
  · rename_i heq
    rw [heq, freeList_eq hp]
    exact hsub id hid
  · exact hid

/-- What is pushed on a free stack is an id of the partition. -/
theorem pushFree (s : RowStore T V) {id : SlotId}
    (hid : s.format.chunkOf id ∈ s.chain partition) : Quiet s (s.pushFree partition id) := by
  refine ⟨⟨.pushFree s partition id, fun _ => rfl⟩, fun h => h, fun q id' hid' => ?_⟩
  unfold freeList RowStore.pushFree at hid'
  rw [partitions_modifyPartition] at hid'
  split at hid'
  · rename_i heq
    subst heq
    cases hp : s.partitions[q]? with
    | none =>
      rw [hp] at hid'
      cases hid'
    | some p =>
      rw [hp] at hid'
      rcases BoundedStack.mem_of_mem_push hid' with rfl | hold
      · exact .inr hid
      · left
        rw [freeList_eq hp]
        exact hold
  · exact .inl hid'

end Quiet

/-! ### Operations that leave the registry alone -/

theorem claimNext_quiet (s : RowStore T V) (partition : Nat) :
    Quiet s (s.claimNext partition).2 := by
  rw [claimNext_eq]
  split
  · exact .refl s
  · rename_i chunk hcurrent
    split
    · rename_i hspare
      have hclaim : Quiet s (s.modifyRows chunk (·.push none)) := .modifyRows s chunk fun _ => by
        rw [Array.size_push, ← fill_eq]
        exact hspare
      exact hclaim
    · exact .refl s

theorem claimUpTo_quiet (s : RowStore T V) (chunk : Nat) {row : Nat}
    (hrow : row < s.format.rowsPerChunk) : Quiet s (s.claimUpTo chunk row) := by
  refine .modifyRows s chunk fun hle => ?_
  rw [fill_eq] at hle
  rw [Array.size_append, Array.size_replicate]
  omega

theorem issueSpare_quiet (s : RowStore T V) (partition : Nat) :
    Quiet s (s.issueSpare partition).2 := by
  unfold issueSpare
  split
  · exact .refl s
  · rename_i p hp
    split
    · exact claimNext_quiet s partition
    · rename_i id freeIds hpop
      have hpopped : Quiet s (s.setFreeIds partition freeIds) := by
        refine .setFreeIds hp fun id hid => BoundedStack.mem_of_mem_pop ?_
        rw [hpop]
        exact hid
      split
      · exact hpopped.trans (claimUpTo_quiet _ _ (IdFormat.rowOf_lt ..))
      · exact hpopped.trans (claimNext_quiet _ partition)

theorem occupyRow_quiet (s : RowStore T V) (chunk row item : Nat) (values : List V) :
    Quiet s (s.occupyRow chunk row item values).2 := by
  unfold occupyRow
  split <;> exact .setCell ..

theorem occupy_quiet (s : RowStore T V) (partition : Nat) (id : SlotId) (item : Nat)
    (values : List V) : Quiet s (s.occupy partition id item values).2 := by
  unfold occupy
  split
  · exact .refl s
  · split
    · exact (Quiet.setId s item id).trans (.setCell ..)
    · exact .setId s item id

theorem rewrite_quiet (s : RowStore T V) (partition : Nat) (id : SlotId)
    (f : List V → List V) : Quiet s (s.rewrite partition id f).2 := by
  unfold rewrite
  split
  · exact .refl s
  · split
    · exact .refl s
    · exact .setCell ..

theorem makeRoom_quiet (s : RowStore T V) (partition : Nat) :
    Quiet s (s.makeRoom partition).2 := by
  unfold makeRoom
  split
  · exact .refl s
  · rename_i p hp
    split
    · exact .refl s
    · split
      · exact .refl s
      · rename_i grown hgrown
        refine .setFreeIds hp fun id hid => ?_
        -- The wider stack was empty, so all it holds was copied to it.
        rcases BoundedStack.mem_of_mem_pushAll hid with hid | hid
        · rwa [List.mem_reverse, BoundedStack.drain_toList] at hid
        · rw [BoundedStack.allocate_ok hgrown] at hid
          cases hid

theorem giveUpLast_quiet (h : Chained s) {chunk last : Nat} (hc : chunk ∈ s.chain partition)
    (hlast : last < s.format.rowsPerChunk) : Quiet s (s.giveUpLast partition chunk last) := by
  have hpop : Quiet s (s.modifyRows chunk Array.pop) := by
    refine .modifyRows s chunk fun hle => ?_
    rw [fill_eq] at hle
    rw [Array.size_pop]
    omega
  unfold giveUpLast
  split
  · exact hpop
  · refine hpop.trans (.pushFree _ ?_)
    rw [hpop.chain, hpop.format, h.chunkOf_slotId (h.chain_lt partition chunk hc) hlast]
    exact hc

theorem evictRow_quiet (h : Chained s) {chunk row : Nat} (hc : chunk ∈ s.chain partition)
    (hrow : row < s.format.rowsPerChunk) : Quiet s (s.evictRow partition chunk row).2 := by
  have hlast : s.fill chunk - 1 < s.format.rowsPerChunk := by
    have := h.fill_le chunk
    have := IdFormat.rowsPerChunk_pos s.format
    omega
  unfold evictRow
  by_cases heq : row = s.fill chunk - 1
  · simp only [heq, if_true]
    exact giveUpLast_quiet h hc hlast
  · simp only [heq, if_false]
    cases hmoved : s.cell? chunk (s.fill chunk - 1) with
    | none =>
      have hempty := Quiet.setCell s chunk row none
      refine hempty.trans (.pushFree _ ?_)
      rw [hempty.chain, hempty.format,
        h.chunkOf_slotId (h.chain_lt partition chunk hc) hrow]
      exact hc
    | some moved =>
      have hmove : Quiet s (s.moveInto chunk row moved) :=
        (Quiet.setCell s chunk row (some moved)).trans (.setId ..)
      have hchained : Chained (s.moveInto chunk row moved) :=
        hmove.toSameChains.chained h (hmove.fill_le h.fill_le)
      exact hmove.trans (giveUpLast_quiet hchained (by rw [hmove.chain]; exact hc)
        (by rw [hmove.format]; exact hlast))

theorem evict_quiet (h : Chained s) {α : Type} (partition : Nat) (id : SlotId)
    (accept : RowView V → Except StoreError α) : Quiet s (s.evict partition id accept).2 := by
  unfold evict
  split
  · exact .refl s
  · rename_i chunk row hlocate
    obtain ⟨-, hc, hrow⟩ := h.locate_eq_some_iff.mp hlocate
    split
    · exact .refl s
    · have hroom := makeRoom_quiet s partition
      split
      · rename_i e s₁ hmake
        rwa [hmake] at hroom
      · rename_i s₁ hmake
        rw [hmake] at hroom
        split
        · exact hroom
        · have hchained : Chained s₁ := hroom.toSameChains.chained h (hroom.fill_le h.fill_le)
          exact hroom.trans (evictRow_quiet hchained (by rw [hroom.chain]; exact hc)
            (by rw [hroom.format]; exact h.lt_rowsPerChunk hrow))

/-! ### Growth -/

/-- One chunk was made. It has the next number and is linked behind the last chunk of one
partition, which may itself be new. -/
structure Grown (s s' : RowStore T V) (partition : Nat) (columns : List T) : Prop where
  spare : s.chunkCount < s.format.maxChunks
  format : s'.format = s.format
  chunkCount : s'.chunkCount = s.chunkCount + 1
  layout_before : s.layout? partition = none ∨ s.layout? partition = some columns
  layout : ∀ q, s'.layout? q = if q = partition then some columns else s.layout? q
  chain : ∀ q, s'.chain q = if q = partition then s.chain q ++ [s.chunkCount] else s.chain q
  bare : ∀ c, s'.bare? c =
    if c = s.chunkCount then some ⟨columns, #[], s.current? partition, none⟩
    else if s.current? partition = some c then
      (s.bare? c).map fun b => { b with next := b.next.or (some s.chunkCount) }
    else s.bare? c

theorem Grown.of_same {columns : List T} {s₀ s₁ : RowStore T V} (h₀ : SameRegistry s s₀)
    (h : Grown s₀ s₁ partition columns) (h₁ : SameRegistry s₁ s') :
    Grown s s' partition columns := by
  have hcurrent := h₀.current? partition
  refine ⟨?_, ?_, ?_, ?_, ?_, ?_, ?_⟩
  · rw [← h₀.chunkCount, ← h₀.format]
    exact h.spare
  · rw [h₁.format, h.format, h₀.format]
  · rw [h₁.chunkCount, h.chunkCount, h₀.chunkCount]
  · rw [← h₀.layout]
    exact h.layout_before
  · intro q
    rw [h₁.layout, h.layout, h₀.layout]
  · intro q
    rw [h₁.chain, h.chain, h₀.chain, h₀.chunkCount]
  · intro c
    rw [h₁.bare, h.bare, h₀.bare, h₀.chunkCount, hcurrent]

theorem bare?_linkNext (s : RowStore T V) (previous : Option Nat) (next chunk : Nat) :
    (s.linkNext previous next).bare? chunk =
      if previous = some chunk then
        (s.bare? chunk).map fun b => { b with next := b.next.or (some next) }
      else s.bare? chunk := by
  cases previous with
  | none => rfl
  | some previous =>
    unfold bare? linkNext modifyChunk
    rw [Array.getElem?_modify]
    simp only [Option.some.injEq]
    split
    · cases s.chunks[chunk]? <;> rfl
    · rfl

variable [ComponentType T]

theorem newChunk_bare {layout : List T} {previous : Option Nat} {chunk : Nat}
    (h : s.newChunk layout previous = (.ok chunk, s')) (c : Nat) :
    s'.bare? c =
      if c = s.chunkCount then some ⟨layout, #[], previous, none⟩
      else if previous = some c then
        (s.bare? c).map fun b => { b with next := b.next.or (some s.chunkCount) }
      else s.bare? c := by
  unfold newChunk at h
  split at h
  · cases h
  · split at h
    · cases h
    · cases h
      rw [← bare?_linkNext]
      unfold bare? addChunk
      rw [Array.getElem?_push]
      have hsize : (s.linkNext previous s.chunkCount).chunks.size = s.chunkCount :=
        chunkCount_linkNext ..
      rw [hsize]
      split <;> rfl

theorem newPartition_grown {layout : List T}
    (h : s.newPartition layout = (.ok partition, s')) : Grown s s' partition layout := by
  obtain ⟨hsize, -, hadds, -⟩ := newPartition_ok h
  have hnone : s.partitions[partition]? = none := by
    rw [hsize]
    exact Array.getElem?_eq_none (Nat.le_refl _)
  have hcurrent : s.current? partition = none := by rw [current?, hnone]; rfl
  refine ⟨hadds.spare, hadds.format, hadds.chunkCount, .inl ?_, layout?_newPartition h, ?_, ?_⟩
  · rw [layout?, hnone]
    rfl
  · intro q
    rw [chain_newPartition h]
    split
    · rename_i heq
      rw [heq, chain_of_none hnone]
      rfl
    · rfl
  · intro c
    -- The first chunk of a partition is linked behind none.
    unfold newPartition at h
    split at h
    · cases h
    · rename_i chunk s₁ hchunk
      rw [BoundedStack.allocate_zero] at h
      cases h
      rw [hcurrent]
      exact newChunk_bare hchunk c

theorem extend_grown (h : s.extend partition = (.ok (), s')) :
    ∃ columns, Grown s s' partition columns := by
  obtain ⟨hadds, hlayout, hchain, -⟩ := extend_adds h
  cases hp : s.partitions[partition]? with
  | none =>
    simp only [extend, hp] at h
    cases h
  | some p =>
    have hsome : s.layout? partition = some p.layout := by rw [layout?, hp]; rfl
    refine ⟨p.layout, hadds.spare, hadds.format, hadds.chunkCount, .inr hsome, ?_, hchain, ?_⟩
    · intro q
      rw [hlayout]
      split
      · rename_i heq
        rw [heq, hsome]
      · rfl
    · intro c
      unfold extend at h
      rw [hp] at h
      simp only at h
      split at h
      · cases h
      · rename_i chunk s₁ hchunk
        cases h
        have hcurrent : s.current? partition = p.current? := by rw [current?, hp]; rfl
        rw [hcurrent]
        exact newChunk_bare hchunk c

end RowStore

end ArchetypeStore

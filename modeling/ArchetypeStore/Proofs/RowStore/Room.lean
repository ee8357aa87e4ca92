import ArchetypeStore.Proofs.RowStore.Insert
import ArchetypeStore.Proofs.RowStore.Removal

/-! # Room for an item

  A partition that was just made has a current chunk without claimed rows, so it takes an
  item whatever happens in other partitions in the meantime. Whether an id is issued does
  not depend on the id words of items, and what a removal leaves does not depend on the
  check that agreed to it.
-/

namespace ArchetypeStore.RowStore

variable {T V : Type} {s s' : RowStore T V} {reserved : List SlotId} {partition : Nat}

/-! ### Partitions that were just made -/

/-- No row of the current chunk is claimed. -/
def Fresh (s : RowStore T V) (partition : Nat) : Prop :=
  ∃ chunk, s.current? partition = some chunk ∧ s.fill chunk = 0

/-- Emptying a row leaves such a partition as it is. -/
theorem Fresh.vacated (hfresh : s.Fresh partition) {chunk row given : Nat}
    (hvacated : s.Vacated s' chunk row given) (hdense : s'.Dense) : s'.Fresh partition := by
  obtain ⟨current, hcurrent, hempty⟩ := hfresh
  refine ⟨current, (hvacated.same.current? partition).trans hcurrent, ?_⟩
  apply Decidable.byContradiction
  intro hfill
  have hsome := hdense current 0 (Nat.pos_of_ne_zero hfill)
  -- The row is in a chunk with claimed rows, so in another one.
  have hne : current ≠ chunk := by
    rintro rfl
    have := hvacated.given_lt
    omega
  rw [hvacated.cell, if_neg fun heq => hne heq.1, if_neg fun heq => hne heq.1,
    cell?_of_fill_le (Nat.le_of_eq hempty)] at hsome
  cases hsome

theorem Fresh.setId (hfresh : s.Fresh partition) (item : Nat) (id : SlotId) :
    (s.setId item id).Fresh partition := hfresh

section growth

variable [ComponentType T]

theorem newPartition_fresh {layout : List T}
    (hnew : s.newPartition layout = (.ok partition, s')) : s'.Fresh partition := by
  obtain ⟨-, -, hadds, -⟩ := newPartition_ok hnew
  refine ⟨s.chunkCount, ?_, ?_⟩
  · rw [current?_eq_getLast?, chain_newPartition hnew, if_pos rfl]
    rfl
  · rw [hadds.fill]
    exact fill_of_chunkCount_le (Nat.le_refl _)

/-- Such a partition issues an id. -/
theorem not_fresh_of_issue_error (h : Sound s reserved) {e : StoreError}
    (hissue : s.issue partition = (.error e, s')) : ¬ s.Fresh partition := by
  rintro ⟨current, hcurrent, hempty⟩
  unfold issue at hissue
  split at hissue
  · cases hissue
  · rename_i hnone
    exact issueSpare_of_extended h hcurrent hempty hnone

/-! ### Id words -/

omit [ComponentType T] in
theorem setId_setId (s : RowStore T V) (item : Nat) (id id' : SlotId) :
    (s.setId item id).setId item id' = s.setId item id' := by
  simp [setId]

omit [ComponentType T] in
theorem claimNext_withIds (s : RowStore T V) (ids : Array SlotId) (partition : Nat) :
    claimNext { s with ids } partition =
      ((s.claimNext partition).1, { (s.claimNext partition).2 with ids }) := by
  have hfill : ∀ chunk, fill { s with ids } chunk = s.fill chunk := fun _ => rfl
  cases hcurrent : s.partitions[partition]?.bind Partition.current? with
  | none => simp only [claimNext, hcurrent]
  | some chunk =>
    by_cases hspare : s.fill chunk < s.format.rowsPerChunk
    · simp only [claimNext, hcurrent, hfill, if_pos hspare]
      rfl
    · simp only [claimNext, hcurrent, hfill, if_neg hspare]

omit [ComponentType T] in
theorem issueSpare_withIds (s : RowStore T V) (ids : Array SlotId) (partition : Nat) :
    issueSpare { s with ids } partition =
      ((s.issueSpare partition).1, { (s.issueSpare partition).2 with ids }) := by
  cases hp : s.partitions[partition]? with
  | none => simp only [issueSpare, hp]
  | some p =>
    cases hpop : p.freeIds.pop with
    | mk top freeIds =>
      cases top with
      | none =>
        simp only [issueSpare, hp, hpop]
        exact claimNext_withIds s ids partition
      | some top =>
        by_cases howns : p.owns (s.format.chunkOf top) = true
        · simp only [issueSpare, hp, hpop, if_pos howns]
          rfl
        · simp only [issueSpare, hp, hpop, if_neg howns]
          exact claimNext_withIds (s.setFreeIds partition freeIds) ids partition

theorem newChunk_withIds (s : RowStore T V) (ids : Array SlotId) (layout : List T)
    (previous : Option Nat) : newChunk { s with ids } layout previous =
      ((s.newChunk layout previous).1, { (s.newChunk layout previous).2 with ids }) := by
  have hcount : chunkCount { s with ids } = s.chunkCount := rfl
  by_cases hfull : s.format.maxChunks ≤ s.chunkCount
  · simp only [newChunk, hcount, if_pos hfull]
  · cases hcolumns : allocateChunk s.memory s.format.rowsPerChunk layout with
    | error e => simp only [newChunk, hcount, if_neg hfull, hcolumns]
    | ok =>
      simp only [newChunk, hcount, if_neg hfull, hcolumns]
      cases previous <;> rfl

theorem extend_withIds (s : RowStore T V) (ids : Array SlotId) (partition : Nat) :
    extend { s with ids } partition =
      ((s.extend partition).1, { (s.extend partition).2 with ids }) := by
  cases hp : s.partitions[partition]? with
  | none => simp only [extend, hp]
  | some p =>
    simp only [extend, hp, newChunk_withIds]
    cases s.newChunk p.layout p.current? with
    | mk answer s₁ => cases answer <;> rfl

/-- Whether an id is issued does not depend on the id words. -/
theorem issue_withIds (s : RowStore T V) (ids : Array SlotId) (partition : Nat) :
    (issue { s with ids } partition).1 = (s.issue partition).1 := by
  unfold issue
  rw [issueSpare_withIds]
  cases s.issueSpare partition with
  | mk first s₁ =>
    cases first with
    | some id => rfl
    | none =>
      simp only [extend_withIds]
      cases s₁.extend partition with
      | mk answer s₂ =>
        cases answer with
        | error e => rfl
        | ok =>
          simp only [issueSpare_withIds]
          cases s₂.issueSpare partition with
          | mk again s₃ => cases again <;> rfl

end growth

/-! ### Checks -/

/-- Two checks that agree to a removal leave the same store. -/
theorem evict_store {α β : Type} {id : SlotId} {accept : RowView V → Except StoreError α}
    {accept' : RowView V → Except StoreError β} {evicted : Evicted α V} {evicted' : Evicted β V}
    {s₁ s₂ : RowStore T V} (h : s.evict partition id accept = (.ok evicted, s₁))
    (h' : s.evict partition id accept' = (.ok evicted', s₂)) : s₁ = s₂ := by
  unfold evict at h h'
  split at h
  · cases h
  · rename_i chunk row hlocate
    rw [hlocate] at h'
    simp only at h'
    split at h
    · cases h
    · rename_i cell hcell
      rw [hcell] at h'
      simp only at h'
      split at h
      · cases h
      · rename_i s₀ hroom
        rw [hroom] at h'
        simp only at h'
        split at h
        · cases h
        · split at h'
          · cases h'
          · cases h
            cases h'
            rfl

end ArchetypeStore.RowStore

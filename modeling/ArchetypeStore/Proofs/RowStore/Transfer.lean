import ArchetypeStore.Proofs.RowStore.Sound

/-! # Moving a slot from one class to another

  The primitive changes of a row store move one slot each: claiming a row and popping an
  id reserve it, occupying it publishes it, and giving it up or leaving a hole frees it.
  Each lemma shows that the invariant is kept by every store that looks as if the change
  had been made; the operations are put together from them.
-/

namespace ArchetypeStore.RowStore

variable {T V : Type} {s s' : RowStore T V} {reserved : List SlotId} {partition chunk row : Nat}

/-! ### Reserving -/

/-- Claiming the next row of the current chunk reserves its id. -/
theorem Sound.claimNext (h : Sound s reserved) (hcurrent : s.current? partition = some chunk)
    (hspare : s.fill chunk < s.format.rowsPerChunk) (hsame : SameChains s s')
    (hfill : ∀ c, s'.fill c = if c = chunk then s.fill chunk + 1 else s.fill c)
    (hcell : ∀ c r, s'.cell? c r = s.cell? c r)
    (hfree : ∀ q, s'.freeList q = s.freeList q) (hroom : s'.FreeFits) :
    Sound s' (s.format.slotId chunk (s.fill chunk) :: reserved) := by
  have hmem := mem_chain_of_current? hcurrent
  have hc := h.chain_lt partition chunk hmem
  have hchained : Chained s' := hsame.chained h.toChained fun c => by
    rw [hfill]
    split
    · exact hspare
    · exact h.fill_le c
  refine ⟨hchained, hroom, ?_, ?_, ?_, ?_⟩
  · simpa only [hfree, hsame.chain, hsame.format] using h.free_slot
  · intro id hid
    rw [hsame.format]
    rcases List.mem_cons.mp hid with rfl | hid
    · refine ⟨chunk, s.fill chunk, ?_, rfl⟩
      rw [hfill, if_pos rfl]
      omega
    · obtain ⟨c, r, hr, rfl⟩ := h.reserved_slot id hid
      refine ⟨c, r, ?_, rfl⟩
      rw [hfill]
      split
      · rename_i heq
        subst heq
        omega
      · exact hr
  · intro q c hcq r hr
    rw [hsame.chain] at hcq
    rw [hsame.format] at hr
    have hone := h.shares_one q c hcq r hr
    -- Ids are compared through the rows they name.
    have hids := h.slotId_eq_iff hc hspare (h.chain_lt q c hcq) hr
    unfold shares at hone ⊢
    rw [hcell, hfill, hfree, hsame.format, hsame.current?, List.count_cons]
    -- Only the row just above the fill index changes its class.
    by_cases hthis : c = chunk ∧ r = s.fill chunk
    · obtain ⟨rfl, rfl⟩ := hthis
      have hq := h.partition_unique hmem hcq
      subst hq
      simp only [hcurrent, true_and, Nat.le_refl, if_true, beq_self_eq_true,
        Nat.not_succ_le_self, if_false] at hone ⊢
      omega
    · have hne : (s.format.slotId chunk (s.fill chunk) == s.format.slotId c r) = false := by
        rw [beq_eq_false_iff_ne, Ne, hids]
        rintro ⟨rfl, rfl⟩
        exact hthis ⟨rfl, rfl⟩
      rw [hne]
      by_cases heq : c = chunk
      · subst heq
        have hiff : (s.fill c + 1 ≤ r) ↔ s.fill c ≤ r := by
          constructor
          · intro hle
            omega
          · intro hle
            have : r ≠ s.fill c := fun hr => hthis ⟨rfl, hr⟩
            omega
        simpa [hiff] using hone
      · simpa [heq] using hone
  · intro q c hcq hnot
    rw [hsame.chain] at hcq
    rw [hsame.current?] at hnot
    -- The current chunk is no old one, and old ones are as they were.
    have hne : c ≠ chunk := by
      rintro rfl
      rw [h.partition_unique hmem hcq] at hnot
      exact hnot hcurrent
    rw [hfill, if_neg hne, freeRows, hfree, hsame.format]
    exact h.stacked q c hcq hnot

/-- The next id on the free stack names a row below the fill index, or the very next one. -/
theorem Sound.next_free_row (h : Sound s reserved) {rest : List SlotId}
    (hc : chunk ∈ s.chain partition) (hr : row < s.format.rowsPerChunk)
    (hfree : s.freeList partition = s.format.slotId chunk row :: rest) :
    row < s.fill chunk ∨
      row = s.fill chunk ∧
        (rowsAmong s.format chunk rest).filter (fun row => decide (s.fill chunk ≤ row)) =
          List.range' (s.fill chunk + 1) (s.format.rowsPerChunk - (s.fill chunk + 1)) := by
  have hlt := h.chain_lt partition chunk hc
  have hmem : s.format.slotId chunk row ∈ s.freeList partition := by
    rw [hfree]
    exact List.mem_cons_self ..
  obtain ⟨-, -, hcurrent⟩ := h.of_free hc hr hmem
  rcases Nat.lt_or_ge row (s.fill chunk) with hlow | hhigh
  · exact .inl hlow
  · right
    -- The chunk is not the current one, whose free rows all lie below its fill index.
    have hold : s.current? partition ≠ some chunk := fun heq => by
      have := hcurrent heq
      omega
    have hstacked := h.stacked partition chunk hc hold
    obtain ⟨n, hn⟩ : ∃ n, s.format.rowsPerChunk - s.fill chunk = n + 1 :=
      ⟨s.format.rowsPerChunk - s.fill chunk - 1, by omega⟩
    rw [freeRows, hfree, rowsAmong_cons_self (h.chunkOf_slotId hlt hr), h.rowOf_slotId hlt hr,
      List.filter_cons_of_pos (by simpa using hhigh), hn, List.range'_succ,
      List.cons.injEq] at hstacked
    obtain ⟨hrow, hrest⟩ := hstacked
    refine ⟨hrow, ?_⟩
    rw [hrest]
    congr 1
    omega

section popFree

variable (h : Sound s reserved) {rest : List SlotId} (hc : chunk ∈ s.chain partition)
  (hr : row < s.format.rowsPerChunk)
  (hnext : s.freeList partition = s.format.slotId chunk row :: rest) (hsame : SameChains s s')
  (hfill : ∀ c, s'.fill c = if c = chunk then max (s.fill chunk) (row + 1) else s.fill c)
  (hfree : ∀ q, s'.freeList q = if q = partition then rest else s.freeList q)

include h hc hr hnext hsame hfill hfree

/-- The id goes from the free stack to the reserved ones, so its slot is shared by one. -/
theorem Sound.shares_popFree (hcell : ∀ c r, s'.cell? c r = s.cell? c r) {q c r : Nat}
    (hcq : c ∈ s.chain q) (hrr : r < s.format.rowsPerChunk) :
    s'.shares (s.format.slotId chunk row :: reserved) q c r = 1 := by
  have hlt := h.chain_lt partition chunk hc
  have hmem : s.format.slotId chunk row ∈ s.freeList partition := by
    rw [hnext]
    exact List.mem_cons_self ..
  have hone := h.shares_one q c hcq r hrr
  -- In the current chunk the id lies below the fill index, which stays.
  have habove : (s'.current? q = some c ∧ s'.fill c ≤ r) ↔
      (s.current? q = some c ∧ s.fill c ≤ r) := by
    rw [hsame.current?, hfill]
    by_cases heq : c = chunk
    · subst heq
      rw [if_pos rfl]
      have hq := h.partition_unique hc hcq
      subst hq
      constructor
      · rintro ⟨hcur, hle⟩
        exact ⟨hcur, by omega⟩
      · rintro ⟨hcur, hle⟩
        have hlow := (h.of_free hc hr hmem).2.2 hcur
        exact ⟨hcur, by omega⟩
    · rw [if_neg heq]
  -- Together the two lists count as before.
  have hcount : (s.format.slotId chunk row :: reserved).count (s.format.slotId c r) +
        (s'.freeList q).count (s.format.slotId c r) =
      reserved.count (s.format.slotId c r) + (s.freeList q).count (s.format.slotId c r) := by
    rw [hfree, List.count_cons]
    by_cases hq : q = partition
    · rw [if_pos hq, hq, hnext, List.count_cons]
      omega
    · have hne : (s.format.slotId chunk row == s.format.slotId c r) = false := by
        rw [beq_eq_false_iff_ne, Ne, h.slotId_eq_iff hlt hr (h.chain_lt q c hcq) hrr]
        rintro ⟨rfl, rfl⟩
        exact hq (h.partition_unique hc hcq)
      simp [hq, hne]
  unfold shares at hone ⊢
  rw [hcell, hsame.format]
  simp only [habove]
  omega

/-- In the chunk of the id, the free rows behind the fill index are still there in order. -/
theorem Sound.stacked_popFree_self (hold : s.current? partition ≠ some chunk) :
    (s'.freeRows partition chunk).filter (fun row => decide (s'.fill chunk ≤ row)) =
      List.range' (s'.fill chunk) (s'.format.rowsPerChunk - s'.fill chunk) := by
  have hlt := h.chain_lt partition chunk hc
  have hstacked := h.stacked partition chunk hc hold
  unfold freeRows at hstacked ⊢
  rw [hfree, hfill, hsame.format, if_pos rfl, if_pos rfl]
  rw [hnext] at hstacked
  rcases h.next_free_row hc hr hnext with hlow | ⟨hfirst, hrest⟩
  · -- A row below the fill index was no part of the rows behind it.
    rw [rowsAmong_cons_self (h.chunkOf_slotId hlt hr), h.rowOf_slotId hlt hr,
      List.filter_cons_of_neg (by simpa using hlow)] at hstacked
    rw [Nat.max_eq_left (by omega)]
    exact hstacked
  · -- The row above the fill index was the least one on the stack.
    rw [Nat.max_eq_right (by omega), hfirst, ← hrest]
    have hsub : ∀ x ∈ (rowsAmong s.format chunk rest).filter
        (fun row => decide (s.fill chunk ≤ row)), s.fill chunk + 1 ≤ x := by
      intro x hx
      rw [hrest] at hx
      exact (List.mem_range'_1.mp hx).1
    apply List.filter_congr
    intro x hx
    rw [decide_eq_decide]
    constructor
    · omega
    · intro hle
      exact hsub x (List.mem_filter.mpr ⟨hx, by simpa using hle⟩)

omit hfill in
/-- In the other chunks there are the same free rows as before. -/
theorem Sound.freeRows_popFree_other {q c : Nat} (hne : c ≠ chunk) :
    s'.freeRows q c = s.freeRows q c := by
  have hlt := h.chain_lt partition chunk hc
  unfold freeRows
  rw [hfree, hsame.format]
  split
  · rename_i hq
    rw [hq, hnext, rowsAmong_cons_ne (by rw [h.chunkOf_slotId hlt hr]; exact Ne.symm hne)]
  · rfl

end popFree

/-- Popping the next free id and claiming its row reserves it. -/
theorem Sound.popFree (h : Sound s reserved) {rest : List SlotId}
    (hc : chunk ∈ s.chain partition) (hr : row < s.format.rowsPerChunk)
    (hnext : s.freeList partition = s.format.slotId chunk row :: rest)
    (hsame : SameChains s s')
    (hfill : ∀ c, s'.fill c = if c = chunk then max (s.fill chunk) (row + 1) else s.fill c)
    (hcell : ∀ c r, s'.cell? c r = s.cell? c r)
    (hfree : ∀ q, s'.freeList q = if q = partition then rest else s.freeList q)
    (hroom : s'.FreeFits) : Sound s' (s.format.slotId chunk row :: reserved) := by
  have hmono : ∀ c, s.fill c ≤ s'.fill c := fun c => by
    rw [hfill]
    split
    · rename_i heq
      rw [heq]
      exact Nat.le_max_left ..
    · exact Nat.le_refl _
  have hchained : Chained s' := hsame.chained h.toChained fun c => by
    rw [hfill]
    split
    · exact Nat.max_le.mpr ⟨h.fill_le chunk, hr⟩
    · exact h.fill_le c
  refine ⟨hchained, hroom, ?_, ?_, ?_, ?_⟩
  · intro q id hid
    rw [hsame.chain, hsame.format]
    refine h.free_slot q id ?_
    rw [hfree] at hid
    split at hid
    · rename_i heq
      rw [heq, hnext]
      exact List.mem_cons_of_mem _ hid
    · exact hid
  · intro id hid
    rw [hsame.format]
    rcases List.mem_cons.mp hid with rfl | hid
    · refine ⟨chunk, row, ?_, rfl⟩
      rw [hfill, if_pos rfl]
      exact Nat.le_max_right ..
    · obtain ⟨c, r, hcr, rfl⟩ := h.reserved_slot id hid
      exact ⟨c, r, Nat.lt_of_lt_of_le hcr (hmono c), rfl⟩
  · intro q c hcq r hrr
    rw [hsame.chain] at hcq
    rw [hsame.format] at hrr
    exact h.shares_popFree hc hr hnext hsame hfill hfree hcell hcq hrr
  · intro q c hcq hnot
    rw [hsame.chain] at hcq
    rw [hsame.current?] at hnot
    by_cases heq : c = chunk
    · subst heq
      have hq := h.partition_unique hc hcq
      subst hq
      exact h.stacked_popFree_self hc hr hnext hsame hfill hfree hnot
    · rw [h.freeRows_popFree_other hc hr hnext hsame hfree heq, hfill, if_neg heq,
        hsame.format]
      exact h.stacked q c hcq hnot

/-! ### Publishing -/

/-- Putting an item into a reserved row publishes it. -/
theorem Sound.publish (h : Sound s reserved) (hc : chunk ∈ s.chain partition)
    (hr : row < s.fill chunk) (hid : s.format.slotId chunk row ∈ reserved)
    (hsame : SameChains s s') (hfill : ∀ c, s'.fill c = s.fill c) {cell : Cell V}
    (hcell : ∀ c r, s'.cell? c r = if c = chunk ∧ r = row then some cell else s.cell? c r)
    (hfree : ∀ q, s'.freeList q = s.freeList q) (hroom : s'.FreeFits) :
    Sound s' (reserved.erase (s.format.slotId chunk row)) := by
  have hlt := h.chain_lt partition chunk hc
  have hrow := h.lt_rowsPerChunk hr
  have hempty := h.cell?_of_reserved hc hid
  have hchained : Chained s' := hsame.chained h.toChained fun c => by
    rw [hfill]
    exact h.fill_le c
  refine ⟨hchained, hroom, ?_, ?_, ?_, ?_⟩
  · simpa only [hfree, hsame.chain, hsame.format] using h.free_slot
  · intro id hmem
    rw [hsame.format]
    simpa only [hfill] using h.reserved_slot id (List.mem_of_mem_erase hmem)
  · intro q c hcq r hrr
    rw [hsame.chain] at hcq
    rw [hsame.format] at hrr
    have hone := h.shares_one q c hcq r hrr
    unfold shares at hone ⊢
    rw [hcell, hfill, hfree, hsame.format, hsame.current?, List.count_erase]
    by_cases hthis : c = chunk ∧ r = row
    · obtain ⟨rfl, rfl⟩ := hthis
      -- One reservation less, one item more.
      have hpos := List.one_le_count_iff.mpr hid
      simp only [hempty, Option.isSome_none, Bool.false_eq_true, if_false, and_self, if_true,
        Option.isSome_some, beq_self_eq_true] at hone ⊢
      omega
    · have hne : (s.format.slotId chunk row == s.format.slotId c r) = false := by
        rw [beq_eq_false_iff_ne, Ne, h.slotId_eq_iff hlt hrow (h.chain_lt q c hcq) hrr]
        rintro ⟨rfl, rfl⟩
        exact hthis ⟨rfl, rfl⟩
      simpa [hthis, hne] using hone
  · simpa only [freeRows, hsame.chain, hsame.current?, hfree, hfill, hsame.format] using
      h.stacked

/-! ### Freeing -/

/-- One claimed row less keeps the chains in order. -/
theorem Sound.chained_of_giveUp (h : Sound s reserved) (hsame : SameChains s s')
    (hfill : ∀ c, s'.fill c = if c = chunk then s.fill chunk - 1 else s.fill c) :
    Chained s' := by
  refine hsame.chained h.toChained fun c => ?_
  rw [hfill]
  split
  · have := h.fill_le chunk
    omega
  · exact h.fill_le c

/-- The last row of a chunk holds an item, so it is not reserved. -/
theorem Sound.reserved_slot_of_giveUp (h : Sound s reserved) (hc : chunk ∈ s.chain partition)
    {cell : Cell V} (hlast : s.cell? chunk (s.fill chunk - 1) = some cell)
    (hsame : SameChains s s')
    (hfill : ∀ c, s'.fill c = if c = chunk then s.fill chunk - 1 else s.fill c) :
    ∀ id ∈ reserved, ∃ c r, r < s'.fill c ∧ id = s'.format.slotId c r := by
  intro id hid
  obtain ⟨c, r, hr, rfl⟩ := h.reserved_slot id hid
  rw [hsame.format]
  refine ⟨c, r, ?_, rfl⟩
  rw [hfill]
  split
  · rename_i heq
    subst heq
    have hne : r ≠ s.fill c - 1 := by
      rintro rfl
      exact (h.not_free_of_published hc hlast).1 hid
    omega
  · exact hr

/-- A published row at the end of the current chunk becomes unclaimed. -/
theorem Sound.giveUpCurrent (h : Sound s reserved) (hcurrent : s.current? partition = some chunk)
    {cell : Cell V} (hlast : s.cell? chunk (s.fill chunk - 1) = some cell)
    (hsame : SameChains s s')
    (hfill : ∀ c, s'.fill c = if c = chunk then s.fill chunk - 1 else s.fill c)
    (hcell : ∀ c r, s'.cell? c r =
      if c = chunk ∧ r = s.fill chunk - 1 then none else s.cell? c r)
    (hfree : ∀ q, s'.freeList q = s.freeList q) (hroom : s'.FreeFits) : Sound s' reserved := by
  have hc := mem_chain_of_current? hcurrent
  have hpos := lt_fill_of_cell? hlast
  refine ⟨h.chained_of_giveUp hsame hfill, hroom, ?_, ?_, ?_, ?_⟩
  · simpa only [hfree, hsame.chain, hsame.format] using h.free_slot
  · exact h.reserved_slot_of_giveUp hc hlast hsame hfill
  · intro q c hcq r hrr
    rw [hsame.chain] at hcq
    rw [hsame.format] at hrr
    have hone := h.shares_one q c hcq r hrr
    unfold shares at hone ⊢
    rw [hcell, hfill, hfree, hsame.format, hsame.current?]
    by_cases hthis : c = chunk ∧ r = s.fill chunk - 1
    · obtain ⟨rfl, rfl⟩ := hthis
      have hq := h.partition_unique hc hcq
      subst hq
      have hnot : ¬ s.fill c ≤ s.fill c - 1 := by omega
      simp only [hlast, Option.isSome_some, hnot, and_false, if_false, if_true, and_self,
        Option.isSome_none, Bool.false_eq_true, hcurrent, Nat.le_refl] at hone ⊢
      omega
    · by_cases heq : c = chunk
      · subst heq
        -- For the other rows it is the same to be above either index.
        have hiff : (s.fill c - 1 ≤ r) ↔ s.fill c ≤ r := by
          constructor
          · intro hle
            have : r ≠ s.fill c - 1 := fun hr => hthis ⟨rfl, hr⟩
            omega
          · intro hle
            omega
        rw [if_neg hthis, if_pos rfl]
        simpa only [hiff] using hone
      · simpa [heq] using hone
  · intro q c hcq hnot
    rw [hsame.chain] at hcq
    rw [hsame.current?] at hnot
    have hne : c ≠ chunk := by
      rintro rfl
      rw [h.partition_unique hc hcq] at hnot
      exact hnot hcurrent
    rw [hfill, if_neg hne, freeRows, hfree, hsame.format]
    exact h.stacked q c hcq hnot

/-- What all changes that put the id of a published row on the free stack have in common:
of the classes of slots, only that of this row changes. -/
theorem Sound.shares_freed (h : Sound s reserved) (hc : chunk ∈ s.chain partition)
    {cell : Cell V} (hpublished : s.cell? chunk row = some cell) (hsame : SameChains s s')
    (habove : ∀ q c r, c ∈ s.chain q → (s'.current? q = some c ∧ s'.fill c ≤ r ↔
      s.current? q = some c ∧ s.fill c ≤ r))
    (hcell : ∀ c r, s'.cell? c r = if c = chunk ∧ r = row then none else s.cell? c r)
    (hfree : ∀ q, s'.freeList q =
      if q = partition then s.format.slotId chunk row :: s.freeList q else s.freeList q) :
    ∀ q, ∀ c ∈ s'.chain q, ∀ r, r < s'.format.rowsPerChunk → s'.shares reserved q c r = 1 := by
  have hlt := h.chain_lt partition chunk hc
  have hrow := h.lt_rowsPerChunk (lt_fill_of_cell? hpublished)
  intro q c hcq r hrr
  rw [hsame.chain] at hcq
  rw [hsame.format] at hrr
  have hone := h.shares_one q c hcq r hrr
  unfold shares at hone ⊢
  simp only [habove q c r hcq]
  rw [hcell, hfree, hsame.format]
  by_cases hthis : c = chunk ∧ r = row
  · obtain ⟨rfl, rfl⟩ := hthis
    have hq := h.partition_unique hc hcq
    subst hq
    simp only [hpublished, Option.isSome_some, and_self, if_true, Option.isSome_none,
      Bool.false_eq_true, if_false, List.count_cons_self] at hone ⊢
    omega
  · have hne : (s.format.slotId chunk row == s.format.slotId c r) = false := by
      rw [beq_eq_false_iff_ne, Ne, h.slotId_eq_iff hlt hrow (h.chain_lt q c hcq) hrr]
      rintro ⟨rfl, rfl⟩
      exact hthis ⟨rfl, rfl⟩
    rw [if_neg hthis]
    by_cases hq : q = partition
    · rw [if_pos hq, List.count_cons, hne]
      exact hone
    · rw [if_neg hq]
      exact hone

theorem Sound.free_slot_freed (h : Sound s reserved) (hc : chunk ∈ s.chain partition)
    (hr : row < s.format.rowsPerChunk) (hsame : SameChains s s')
    (hfree : ∀ q, s'.freeList q =
      if q = partition then s.format.slotId chunk row :: s.freeList q else s.freeList q) :
    ∀ q, ∀ id ∈ s'.freeList q, ∃ c ∈ s'.chain q, ∃ r, r < s'.format.rowsPerChunk ∧
      id = s'.format.slotId c r := by
  intro q id hid
  rw [hsame.chain, hsame.format]
  rw [hfree] at hid
  split at hid
  · rename_i heq
    rcases List.mem_cons.mp hid with rfl | hid
    · exact ⟨chunk, heq ▸ hc, row, hr, rfl⟩
    · exact h.free_slot q id hid
  · exact h.free_slot q id hid

/-- A published row at the end of an old chunk goes on the free stack. -/
theorem Sound.giveUpOld (h : Sound s reserved) (hc : chunk ∈ s.chain partition)
    (hold : s.current? partition ≠ some chunk)
    {cell : Cell V} (hlast : s.cell? chunk (s.fill chunk - 1) = some cell)
    (hsame : SameChains s s')
    (hfill : ∀ c, s'.fill c = if c = chunk then s.fill chunk - 1 else s.fill c)
    (hcell : ∀ c r, s'.cell? c r =
      if c = chunk ∧ r = s.fill chunk - 1 then none else s.cell? c r)
    (hfree : ∀ q, s'.freeList q = if q = partition then
      s.format.slotId chunk (s.fill chunk - 1) :: s.freeList q else s.freeList q)
    (hroom : s'.FreeFits) : Sound s' reserved := by
  have hlt := h.chain_lt partition chunk hc
  have hpos := lt_fill_of_cell? hlast
  have hrow := h.lt_rowsPerChunk hpos
  have hclass := h.not_free_of_published hc hlast
  refine ⟨h.chained_of_giveUp hsame hfill, hroom, h.free_slot_freed hc hrow hsame hfree,
    h.reserved_slot_of_giveUp hc hlast hsame hfill, h.shares_freed hc hlast hsame ?_ hcell hfree,
    ?_⟩
  · intro q c r hcq
    rw [hsame.current?, hfill]
    split
    · rename_i heq
      subst heq
      have hq := h.partition_unique hc hcq
      subst hq
      simp [hold]
    · rfl
  · intro q c hcq hnot
    rw [hsame.chain] at hcq
    rw [hsame.current?] at hnot
    have hstacked := h.stacked q c hcq hnot
    unfold freeRows at hstacked ⊢
    rw [hfree, hfill, hsame.format]
    by_cases heq : c = chunk
    · subst heq
      have hq := h.partition_unique hc hcq
      subst hq
      rw [if_pos rfl, if_pos rfl, rowsAmong_cons_self (h.chunkOf_slotId hlt hrow),
        h.rowOf_slotId hlt hrow, List.filter_cons_of_pos (by simp)]
      -- The row itself was published, so it did not lie on the stack.
      have habsent : s.fill c - 1 ∉ rowsAmong s.format c (s.freeList q) := by
        intro hmem
        obtain ⟨id, hid, hchunk, hidrow⟩ := mem_rowsAmong.mp hmem
        obtain ⟨c', hc', r', hr', rfl⟩ := h.free_slot q id hid
        rw [h.chunkOf_slotId (h.chain_lt q c' hc') hr'] at hchunk
        rw [h.rowOf_slotId (h.chain_lt q c' hc') hr'] at hidrow
        rw [hchunk, hidrow] at hid
        exact hclass.2 hid
      have hsame' : (rowsAmong s.format c (s.freeList q)).filter
            (fun row => decide (s.fill c - 1 ≤ row)) =
          (rowsAmong s.format c (s.freeList q)).filter (fun row => decide (s.fill c ≤ row)) := by
        apply List.filter_congr
        intro x hx
        rw [decide_eq_decide]
        have : x ≠ s.fill c - 1 := by
          rintro rfl
          exact habsent hx
        omega
      rw [hsame', hstacked]
      -- The row goes in front of the rows behind it, which were in order.
      obtain ⟨n, hn⟩ : ∃ n, s.format.rowsPerChunk - (s.fill c - 1) = n + 1 :=
        ⟨s.format.rowsPerChunk - s.fill c, by omega⟩
      rw [hn, List.range'_succ]
      congr 2 <;> omega
    · have hrows : rowsAmong s.format c (if q = partition then
            s.format.slotId chunk (s.fill chunk - 1) :: s.freeList q else s.freeList q) =
          rowsAmong s.format c (s.freeList q) := by
        split
        · exact rowsAmong_cons_ne (by rw [h.chunkOf_slotId hlt hrow]; exact Ne.symm heq) _
        · rfl
      rw [hrows, if_neg heq]
      exact hstacked

/-- A published row below the end of its chunk becomes a hole on the free stack. -/
theorem Sound.leaveHole (h : Sound s reserved) (hc : chunk ∈ s.chain partition)
    {cell : Cell V} (hpublished : s.cell? chunk row = some cell) (hsame : SameChains s s')
    (hfill : ∀ c, s'.fill c = s.fill c)
    (hcell : ∀ c r, s'.cell? c r = if c = chunk ∧ r = row then none else s.cell? c r)
    (hfree : ∀ q, s'.freeList q =
      if q = partition then s.format.slotId chunk row :: s.freeList q else s.freeList q)
    (hroom : s'.FreeFits) : Sound s' reserved := by
  have hlt := h.chain_lt partition chunk hc
  have hr := lt_fill_of_cell? hpublished
  have hrow := h.lt_rowsPerChunk hr
  have hchained : Chained s' := hsame.chained h.toChained fun c => by
    rw [hfill]
    exact h.fill_le c
  refine ⟨hchained, hroom, h.free_slot_freed hc hrow hsame hfree, ?_,
    h.shares_freed hc hpublished hsame ?_ hcell hfree, ?_⟩
  · simpa only [hfill, hsame.format] using h.reserved_slot
  · intro q c r _
    rw [hsame.current?, hfill]
  · intro q c hcq hnot
    rw [hsame.chain] at hcq
    rw [hsame.current?] at hnot
    have hstacked := h.stacked q c hcq hnot
    unfold freeRows at hstacked ⊢
    rw [hfree, hfill, hsame.format]
    split
    · by_cases heq : c = chunk
      · subst heq
        rw [rowsAmong_cons_self (h.chunkOf_slotId hlt hrow), h.rowOf_slotId hlt hrow,
          List.filter_cons_of_neg (by simpa using hr)]
        exact hstacked
      -- Ids of another chunk do not count.
      · rw [rowsAmong_cons_ne (by rw [h.chunkOf_slotId hlt hrow]; exact Ne.symm heq)]
        exact hstacked
    · exact hstacked

/-! ### Growing -/

/-- A chunk that is appended to one chain keeps the chains in order. -/
theorem Chained.addChunk (h : Chained s) (hspare : s.chunkCount < s.format.maxChunks)
    (hformat : s'.format = s.format) (hcount : s'.chunkCount = s.chunkCount + 1)
    (hlayout : ∀ q, (s'.layout? q).isSome → q = partition ∨ (s.layout? q).isSome)
    (hchain : ∀ q, s'.chain q =
      if q = partition then s.chain q ++ [s.chunkCount] else s.chain q)
    (hfill : ∀ c, s'.fill c = s.fill c) : Chained s' := by
  have hmem : ∀ q c, c ∈ s'.chain q ↔ c ∈ s.chain q ∨ q = partition ∧ c = s.chunkCount := by
    intro q c
    rw [hchain]
    split <;> simp [*]
  have hnew : ∀ q, s.chunkCount ∉ s.chain q := fun q hq =>
    Nat.lt_irrefl _ (h.chain_lt q _ hq)
  refine ⟨?_, ?_, ?_, ?_, ?_, ?_, ?_, ?_⟩
  · rw [hformat]
    exact h.valid
  · rw [hformat, hcount]
    exact hspare
  · simpa only [hformat, hfill] using h.fill_le
  · intro q
    rw [hchain]
    split
    · refine List.pairwise_append.mpr ⟨h.ascending q, List.pairwise_singleton .., ?_⟩
      intro a ha b hb
      rw [List.mem_singleton.mp hb]
      exact h.chain_lt q a ha
    · exact h.ascending q
  · intro q hq
    rw [hchain]
    split
    · simp
    · rename_i hne
      rcases hlayout q hq with heq | hold
      · exact absurd heq hne
      · exact h.chain_ne_nil q hold
  · intro q c hc
    rw [hcount]
    rcases (hmem q c).mp hc with hc | ⟨-, rfl⟩
    · exact Nat.lt_succ_of_lt (h.chain_lt q c hc)
    · exact Nat.lt_succ_self _
  · intro p q c hp hq
    rcases (hmem p c).mp hp with hpc | ⟨hp', rfl⟩
    · rcases (hmem q c).mp hq with hqc | ⟨-, rfl⟩
      · exact h.chain_disjoint p q c hpc hqc
      · exact absurd hpc (hnew p)
    · rcases (hmem q _).mp hq with hqc | ⟨hq', -⟩
      · exact absurd hqc (hnew q)
      · rw [hp', hq']
  · intro c hc
    rw [hcount] at hc
    rcases Nat.lt_succ_iff_lt_or_eq.mp hc with hc | rfl
    · obtain ⟨q, hq⟩ := h.chunk_owned c hc
      exact ⟨q, (hmem q c).mpr (.inl hq)⟩
    · exact ⟨partition, (hmem _ _).mpr (.inr ⟨rfl, rfl⟩)⟩

/-- Nothing names a slot of a chunk that is yet to be made. -/
theorem Sound.not_named_of_new (h : Sound s reserved) (hspare : s.chunkCount < s.format.maxChunks)
    (hr : row < s.format.rowsPerChunk) :
    s.format.slotId s.chunkCount row ∉ reserved ∧
      ∀ q, s.format.slotId s.chunkCount row ∉ s.freeList q := by
  have hne : ∀ {c r}, c < s.chunkCount → r < s.format.rowsPerChunk →
      s.format.slotId s.chunkCount row ≠ s.format.slotId c r := by
    intro c r hc hr' heq
    have := IdFormat.slotId_inj h.valid (h.lt_maxChunks hc) hr' hspare hr heq.symm
    omega
  constructor
  · intro hid
    obtain ⟨c, r, hr', heq⟩ := h.reserved_slot _ hid
    exact hne (lt_chunkCount_of_lt_fill hr') (h.lt_rowsPerChunk hr') heq
  · intro q hid
    obtain ⟨c, hc, r, hr', heq⟩ := h.free_slot q _ hid
    exact hne (h.chain_lt q c hc) hr' heq

/-- A new chunk whose predecessor is full becomes the current one; all its rows are
unclaimed. A partition that has no chain yet gets its first chunk in the same way. -/
theorem Sound.addChunk (h : Sound s reserved) (hspare : s.chunkCount < s.format.maxChunks)
    (hfull : ∀ c, s.current? partition = some c → s.fill c = s.format.rowsPerChunk)
    (hformat : s'.format = s.format) (hcount : s'.chunkCount = s.chunkCount + 1)
    (hlayout : ∀ q, (s'.layout? q).isSome → q = partition ∨ (s.layout? q).isSome)
    (hchain : ∀ q, s'.chain q =
      if q = partition then s.chain q ++ [s.chunkCount] else s.chain q)
    (hfill : ∀ c, s'.fill c = s.fill c) (hcell : ∀ c r, s'.cell? c r = s.cell? c r)
    (hfree : ∀ q, s'.freeList q = s.freeList q) (hroom : s'.FreeFits) : Sound s' reserved := by
  have hmem : ∀ q c, c ∈ s'.chain q ↔ c ∈ s.chain q ∨ q = partition ∧ c = s.chunkCount := by
    intro q c
    rw [hchain]
    split <;> simp [*]
  have hcurrent : ∀ q, s'.current? q =
      if q = partition then some s.chunkCount else s.current? q := by
    intro q
    rw [current?_eq_getLast?, current?_eq_getLast?, hchain]
    split
    · simp
    · rfl
  have hnofill : s.fill s.chunkCount = 0 := fill_of_chunkCount_le (Nat.le_refl _)
  refine ⟨h.toChained.addChunk hspare hformat hcount hlayout hchain hfill, hroom, ?_, ?_, ?_, ?_⟩
  · intro q id hid
    rw [hfree] at hid
    obtain ⟨c, hc, r, hr, rfl⟩ := h.free_slot q id hid
    rw [hformat]
    exact ⟨c, (hmem q c).mpr (.inl hc), r, hr, rfl⟩
  · simpa only [hfill, hformat] using h.reserved_slot
  · intro q c hc r hr
    rw [hformat] at hr
    unfold shares
    rw [hcell, hfill, hfree, hformat, hcurrent]
    rcases (hmem q c).mp hc with hc | ⟨rfl, rfl⟩
    · have hone := h.shares_one q c hc r hr
      unfold shares at hone
      -- The chunk that was current is full, so it has no unclaimed rows to lose.
      have hiff : ((if q = partition then some s.chunkCount else s.current? q) = some c ∧
          s.fill c ≤ r) ↔ (s.current? q = some c ∧ s.fill c ≤ r) := by
        split
        · rename_i heq
          subst heq
          have hlt := h.chain_lt q c hc
          constructor
          · rintro ⟨hsome, -⟩
            have := Option.some.inj hsome
            omega
          · rintro ⟨hcur, hle⟩
            have := hfull c hcur
            omega
        · rfl
      simp only [hiff]
      exact hone
    · obtain ⟨hreserved, hfreed⟩ := h.not_named_of_new hspare hr
      have hempty : s.cell? s.chunkCount r = none :=
        cell?_of_fill_le (by rw [hnofill]; exact Nat.zero_le r)
      rw [List.count_eq_zero.mpr hreserved, List.count_eq_zero.mpr (hfreed q), hempty, hnofill]
      simp
  · intro q c hc hnot
    rw [hcurrent] at hnot
    unfold freeRows
    rw [hfree, hfill, hformat]
    rcases (hmem q c).mp hc with hc | ⟨rfl, rfl⟩
    · by_cases hcur : s.current? q = some c
      · -- The chunk that was current is full, so it has no rows behind its fill index.
        have hq : q = partition := by
          refine Classical.byContradiction fun hne => hnot ?_
          rw [if_neg hne]
          exact hcur
        rw [hq] at hcur ⊢
        rw [hfull c hcur, Nat.sub_self, List.range'_zero, List.filter_eq_nil_iff]
        intro r hrow
        obtain ⟨id, -, -, rfl⟩ := mem_rowsAmong.mp hrow
        have := IdFormat.rowOf_lt s.format id
        simpa using this
      · exact h.stacked q c hc hcur
    · rw [if_pos rfl] at hnot
      exact absurd rfl hnot

end ArchetypeStore.RowStore

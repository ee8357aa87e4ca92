import ArchetypeStore.Proofs.RowStore.Growth

/-! # What the issue of an id does

  An id that is issued names an empty row that nobody holds. Its row is claimed and the id
  is reserved; no item is touched. An issue that is refused changes nothing, and happens
  only when the partition is full and cannot grow.
-/

namespace ArchetypeStore.RowStore

variable {T V : Type} {s s' : RowStore T V} {reserved : List SlotId} {partition : Nat}

/-! ### Frames -/

/-- What no operation on rows changes: layouts stay and chains only get longer. -/
structure Steady (s s' : RowStore T V) : Prop where
  format : s'.format = s.format
  layout : ∀ q, s'.layout? q = s.layout? q
  chain : ∀ q, s.chain q <+: s'.chain q

theorem Steady.refl (s : RowStore T V) : Steady s s :=
  ⟨rfl, fun _ => rfl, fun _ => List.prefix_refl _⟩

theorem Steady.trans {s s' s'' : RowStore T V} (h : Steady s s') (h' : Steady s' s'') :
    Steady s s'' :=
  ⟨h'.format.trans h.format, fun q => (h'.layout q).trans (h.layout q),
    fun q => (h.chain q).trans (h'.chain q)⟩

theorem SameChains.steady (h : SameChains s s') : Steady s s' :=
  ⟨h.format, h.layout, fun q => h.chain q ▸ List.prefix_refl _⟩

theorem Steady.mem_chain (h : Steady s s') {chunk : Nat} (hc : chunk ∈ s.chain partition) :
    chunk ∈ s'.chain partition :=
  (h.chain partition).subset hc

/-- Every claimed row holds an item. -/
def Dense (s : RowStore T V) : Prop := ∀ c r, r < s.fill c → (s.cell? c r).isSome

/-- What is seen after the id of a row was issued in a partition. -/
structure Issued (s s' : RowStore T V) (partition chunk row : Nat) : Prop where
  steady : Steady s s'
  mem_chain : chunk ∈ s'.chain partition
  row_lt : row < s.format.rowsPerChunk
  empty : s.cell? chunk row = none
  /-- At most the next row is claimed on the way. -/
  row_le : row ≤ s.fill chunk
  fill : ∀ c, s'.fill c = if c = chunk then max (s.fill chunk) (row + 1) else s.fill c
  cell : ∀ c r, s'.cell? c r = s.cell? c r
  ids : s'.ids = s.ids

theorem Issued.lt_fill {chunk row : Nat} (h : Issued s s' partition chunk row) :
    row < s'.fill chunk := by
  rw [h.fill, if_pos rfl]
  exact Nat.le_max_right ..

/-- The ids that are out are distinct. -/
theorem Sound.not_mem_reserved {id : SlotId} (h : Sound s (id :: reserved)) :
    id ∉ reserved := by
  obtain ⟨p, c, hc, r, hr, rfl⟩ := h.of_reserved (List.mem_cons_self ..)
  have hone := h.shares_one p c hc r (h.lt_rowsPerChunk hr)
  rw [shares, List.count_cons_self] at hone
  rw [← List.count_eq_zero]
  omega

/-! ### The next row -/

theorem claimNext_eq (s : RowStore T V) (partition : Nat) :
    s.claimNext partition =
      match s.current? partition with
      | none => (none, s)
      | some chunk =>
        if s.fill chunk < s.format.rowsPerChunk then
          (some (s.format.slotId chunk (s.fill chunk)), s.modifyRows chunk (·.push none))
        else (none, s) :=
  rfl

theorem claimNext_some (h : Sound s reserved) {id : SlotId}
    (hclaim : s.claimNext partition = (some id, s')) :
    ∃ chunk row, id = s.format.slotId chunk row ∧ Issued s s' partition chunk row ∧
      Sound s' (id :: reserved) := by
  rw [claimNext_eq] at hclaim
  split at hclaim
  · cases hclaim
  · rename_i chunk hcurrent
    split at hclaim
    · rename_i hspare
      cases hclaim
      have hmem := mem_chain_of_current? hcurrent
      have hlt := h.chain_lt partition chunk hmem
      have hsame := SameChains.modifyRows s chunk (·.push none)
      refine ⟨chunk, s.fill chunk, rfl, ⟨hsame.steady, ?_, hspare, ?_, ?_, ?_, ?_, rfl⟩, ?_⟩
      · rw [hsame.chain]
        exact hmem
      · exact cell?_of_fill_le (Nat.le_refl _)
      · exact Nat.le_refl _
      · intro c
        rw [fill_push s hlt, Nat.max_eq_right (Nat.le_succ _)]
      · exact cell?_push s hlt
      · exact h.claimNext hcurrent hspare hsame (fill_push s hlt) (cell?_push s hlt)
          (fun _ => rfl) h.room
    · cases hclaim

theorem claimNext_none (h : Chained s) (hclaim : s.claimNext partition = (none, s')) :
    s' = s ∧ ∀ c, s.current? partition = some c → s.fill c = s.format.rowsPerChunk := by
  rw [claimNext_eq] at hclaim
  split at hclaim
  · rename_i hcurrent
    cases hclaim
    refine ⟨rfl, fun c hc => ?_⟩
    rw [hcurrent] at hc
    cases hc
  · rename_i chunk hcurrent
    split at hclaim
    · cases hclaim
    · rename_i hfull
      cases hclaim
      refine ⟨rfl, fun c hc => ?_⟩
      rw [hcurrent] at hc
      cases hc
      have := h.fill_le chunk
      omega

/-! ### Spare ids -/

/-- An id on top of the free stack is popped and its row is claimed, if its chunk is in the
chain. -/
theorem issueSpare_of_owned (h : Chained s) {p : Partition T}
    (hp : s.partitions[partition]? = some p) {id : SlotId} {rest : List SlotId}
    (hfree : p.freeIds.toList = id :: rest)
    (hown : s.format.chunkOf id ∈ s.chain partition) :
    s.issueSpare partition = (some id, (s.setFreeIds partition p.freeIds.pop.2).claimUpTo
      (s.format.chunkOf id) (s.format.rowOf id)) := by
  have hpop : p.freeIds.pop = (some id, p.freeIds.pop.2) := by
    rw [← (BoundedStack.pop_of_toList_cons hfree).1]
  have hsorted : Ascending p.chain := by
    have := h.ascending partition
    rwa [chain_eq hp] at this
  have howns : p.owns (s.format.chunkOf id) = true := by
    rw [Partition.owns_iff hsorted, ← chain_eq hp]
    exact hown
  unfold issueSpare
  rw [hp]
  simp only
  rw [hpop]
  simp only
  rw [if_pos howns]

/-- A free id is always one of the partition's own: it is popped and its row is claimed. -/
theorem issueSpare_of_free (h : Sound s reserved) {p : Partition T}
    (hp : s.partitions[partition]? = some p) {id : SlotId} {rest : List SlotId}
    (hfree : p.freeIds.toList = id :: rest) :
    ∃ chunk row, id = s.format.slotId chunk row ∧ (s.issueSpare partition).1 = some id ∧
      Issued s (s.issueSpare partition).2 partition chunk row ∧
        Sound (s.issueSpare partition).2 (id :: reserved) := by
  have hlist : s.freeList partition = id :: rest := by rw [freeList_eq hp, hfree]
  have hrest := (BoundedStack.pop_of_toList_cons hfree).2
  obtain ⟨chunk, hc, row, hr, rfl⟩ := h.free_slot partition id (by
    rw [hlist]
    exact List.mem_cons_self ..)
  have hlt := h.chain_lt partition chunk hc
  have hissue := issueSpare_of_owned h.toChained hp hfree (by
    rw [h.chunkOf_slotId hlt hr]
    exact hc)
  rw [h.chunkOf_slotId hlt hr, h.rowOf_slotId hlt hr] at hissue
  have hsame : SameChains s
      ((s.setFreeIds partition p.freeIds.pop.2).claimUpTo chunk row) :=
    (SameChains.setFreeIds s partition _).trans (SameChains.modifyRows _ chunk _)
  have hfill : ∀ c, ((s.setFreeIds partition p.freeIds.pop.2).claimUpTo chunk row).fill c =
      if c = chunk then max (s.fill chunk) (row + 1) else s.fill c := fill_claimUpTo _ hlt row
  have hcell : ∀ c r, ((s.setFreeIds partition p.freeIds.pop.2).claimUpTo chunk row).cell? c r =
      s.cell? c r := cell?_claimUpTo _ hlt row
  have hlists : ∀ q, ((s.setFreeIds partition p.freeIds.pop.2).claimUpTo chunk row).freeList q =
      if q = partition then rest else s.freeList q := by
    intro q
    rw [← hrest]
    exact freeList_setFreeIds s hp p.freeIds.pop.2 q
  have hroom : (s.setFreeIds partition p.freeIds.pop.2).FreeFits := by
    refine h.room.setFreeIds partition ?_
    have := h.room partition p hp
    rw [BoundedStack.pop_capacity, BoundedStack.pop_top]
    omega
  rw [hissue]
  refine ⟨chunk, row, rfl, rfl, ⟨hsame.steady, ?_, hr, ?_, ?_, hfill, hcell, rfl⟩, ?_⟩
  · rw [hsame.chain]
    exact hc
  · exact (h.of_free hc hr (by rw [hlist]; exact List.mem_cons_self ..)).1
  -- This is where the order of the stack counts: no row is passed over.
  · rcases h.next_free_row hc hr hlist with hrow | ⟨hrow, -⟩ <;> omega
  · exact h.popFree hc hr hlist hsame hfill hcell hlists hroom

theorem issueSpare_of_no_free {p : Partition T} (hp : s.partitions[partition]? = some p)
    (hfree : p.freeIds.toList = []) : s.issueSpare partition = s.claimNext partition := by
  unfold issueSpare
  rw [hp]
  simp only
  rw [BoundedStack.pop_of_toList_nil hfree]

theorem issueSpare_some (h : Sound s reserved) {id : SlotId}
    (hissue : s.issueSpare partition = (some id, s')) :
    ∃ chunk row, id = s.format.slotId chunk row ∧ Issued s s' partition chunk row ∧
      Sound s' (id :: reserved) := by
  cases hp : s.partitions[partition]? with
  | none =>
    rw [issueSpare, hp] at hissue
    cases hissue
  | some p =>
    cases hfree : p.freeIds.toList with
    | nil =>
      rw [issueSpare_of_no_free hp hfree] at hissue
      exact claimNext_some h hissue
    | cons id' rest =>
      obtain ⟨chunk, row, hid, hfirst, hissued, hsound⟩ := issueSpare_of_free h hp hfree
      rw [hissue] at hfirst hissued hsound
      cases hfirst
      exact ⟨chunk, row, hid, hissued, hsound⟩

/-- No id is to spare only when the free stack is empty and the current chunk is full. -/
theorem Chained.issueSpare_none (h : Chained s)
    (hown : ∀ id ∈ s.freeList partition, s.format.chunkOf id ∈ s.chain partition)
    (hissue : s.issueSpare partition = (none, s')) :
    s' = s ∧ s.freeList partition = [] ∧
      ∀ c, s.current? partition = some c → s.fill c = s.format.rowsPerChunk := by
  cases hp : s.partitions[partition]? with
  | none =>
    rw [issueSpare, hp] at hissue
    cases hissue
    refine ⟨rfl, by simp [freeList, hp], fun c hc => ?_⟩
    rw [current?, hp] at hc
    cases hc
  | some p =>
    cases hfree : p.freeIds.toList with
    | nil =>
      rw [issueSpare_of_no_free hp hfree] at hissue
      obtain ⟨hsame, hfull⟩ := claimNext_none h hissue
      exact ⟨hsame, by rw [freeList_eq hp, hfree], hfull⟩
    | cons id rest =>
      -- An id on the stack would have been issued.
      have hmem := hown id (by rw [freeList_eq hp, hfree]; exact List.mem_cons_self ..)
      rw [issueSpare_of_owned h hp hfree hmem] at hissue
      cases hissue

theorem Sound.free_owned (h : Sound s reserved) {id : SlotId} (hid : id ∈ s.freeList partition) :
    s.format.chunkOf id ∈ s.chain partition := by
  obtain ⟨chunk, hc, row, hr, rfl⟩ := h.free_slot partition id hid
  rw [h.chunkOf_slotId (h.chain_lt partition chunk hc) hr]
  exact hc

theorem issueSpare_none (h : Sound s reserved) (hissue : s.issueSpare partition = (none, s')) :
    s' = s ∧ ∀ c, s.current? partition = some c → s.fill c = s.format.rowsPerChunk := by
  obtain ⟨hsame, -, hfull⟩ := h.toChained.issueSpare_none (fun _ => h.free_owned) hissue
  exact ⟨hsame, hfull⟩

/-! ### Issue -/

/-- In a partition that was extended there is an id to spare. -/
theorem issueSpare_of_extended (h : Sound s reserved) {chunk : Nat}
    (hcurrent : s.current? partition = some chunk) (hempty : s.fill chunk = 0)
    (hissue : s.issueSpare partition = (none, s')) : False := by
  have hfull := (issueSpare_none h hissue).2 chunk hcurrent
  have := IdFormat.rowsPerChunk_pos s.format
  omega

/-- An id that is issued after the partition grew could as well be a row of the store
before. -/
theorem Issued.of_addsChunk {s₁ : RowStore T V} (hadds : AddsChunk s s₁)
    (hsteady : Steady s s₁) {chunk row : Nat} (h : Issued s₁ s' partition chunk row) :
    Issued s s' partition chunk row := by
  refine ⟨hsteady.trans h.steady, h.mem_chain, ?_, ?_, ?_, ?_, ?_, h.ids.trans hadds.ids⟩
  · rw [← hadds.format]
    exact h.row_lt
  · rw [← hadds.cell?]
    exact h.empty
  · rw [← hadds.fill]
    exact h.row_le
  · intro c
    rw [h.fill, hadds.fill, hadds.fill]
  · intro c r
    rw [h.cell, hadds.cell?]

section issue

variable [ComponentType T]

theorem issue_ok (h : Sound s reserved) {id : SlotId}
    (hissue : s.issue partition = (.ok id, s')) :
    ∃ chunk row, id = s.format.slotId chunk row ∧ Issued s s' partition chunk row ∧
      Sound s' (id :: reserved) := by
  unfold issue at hissue
  split at hissue
  · rename_i hspare
    cases hissue
    exact issueSpare_some h hspare
  · rename_i s₁ hnone
    obtain ⟨rfl, hfull⟩ := issueSpare_none h hnone
    split at hissue
    · cases hissue
    · rename_i s₂ hextend
      -- Nothing was to spare, so the current chunk is full and a new one may follow.
      obtain ⟨hsound, hadds, hlayout, hchain, -⟩ := extend_ok h hfull hextend
      have hsteady : Steady s₁ s₂ := by
        refine ⟨hadds.format, hlayout, fun q => ?_⟩
        rw [hchain]
        split
        · exact List.prefix_append ..
        · exact List.prefix_refl _
      split at hissue
      · rename_i hspare
        cases hissue
        obtain ⟨chunk, row, hid, hissued, hsound'⟩ := issueSpare_some hsound hspare
        refine ⟨chunk, row, ?_, hissued.of_addsChunk hadds hsteady, hsound'⟩
        rw [hid, hadds.format]
      · cases hissue

/-- An issue is refused only when the partition cannot grow, and then changes nothing. -/
theorem issue_error (h : Sound s reserved) {layout : List T}
    (hlayout : s.layout? partition = some layout) {e : StoreError}
    (hissue : s.issue partition = (.error e, s')) : s' = s ∧ s.CannotGrow layout e := by
  obtain ⟨p, hp, rfl⟩ := Option.map_eq_some_iff.mp hlayout
  unfold issue at hissue
  split at hissue
  · cases hissue
  · rename_i s₁ hnone
    obtain ⟨rfl, hfull⟩ := issueSpare_none h hnone
    split at hissue
    · rename_i hextend
      cases hissue
      exact extend_error hp hextend
    · rename_i s₂ hextend
      obtain ⟨hsound, hadds, -, hchain, -⟩ := extend_ok h hfull hextend
      split at hissue
      · cases hissue
      · rename_i hnone'
        have hcurrent : s₂.current? partition = some s₁.chunkCount := by
          rw [current?_eq_getLast?, hchain, if_pos rfl]
          simp
        have hempty : s₂.fill s₁.chunkCount = 0 := by
          rw [hadds.fill]
          exact fill_of_chunkCount_le (Nat.le_refl _)
        -- A second refusal would need a new chunk that is full.
        exact (issueSpare_of_extended hsound hcurrent hempty hnone').elim

theorem issue_of_no_layout (hlayout : s.layout? partition = none) :
    s.issue partition = (.error .entityNotFound, s) := by
  have hp : s.partitions[partition]? = none := Option.map_eq_none_iff.mp hlayout
  have hspare : s.issueSpare partition = (none, s) := by
    rw [issueSpare, hp]
  have hextend : s.extend partition = (.error .entityNotFound, s) := by
    rw [extend, hp]
  simp only [issue, hspare, hextend]

/-- An issue that is refused changes nothing. -/
theorem issue_stays (h : Sound s reserved) {e : StoreError}
    (hissue : s.issue partition = (.error e, s')) : s' = s := by
  cases hlayout : s.layout? partition with
  | none =>
    rw [issue_of_no_layout hlayout] at hissue
    cases hissue
    rfl
  | some layout => exact (issue_error h hlayout hissue).1

end issue

end ArchetypeStore.RowStore

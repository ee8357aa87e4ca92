import ArchetypeStore.Proofs.RowStore.Orderly

/-! # When an id is issued again

  A removal gives up one id. In the current chunk it becomes the next row to be claimed,
  anywhere else it goes on the free stack. Since the stack is looked at first, an id that
  went there is the next one issued, but an id of the current chunk waits for all ids that
  lie on the stack.
-/

namespace ArchetypeStore

namespace RowStore

variable {T V : Type} {s s' : RowStore T V} {reserved : List SlotId} {partition : Nat}

/-! ### Free ids -/

/-- A free id is the id of the row that it leads to. -/
theorem Sound.place_of_free (h : Sound s reserved) {id : SlotId}
    (hid : id ∈ s.freeList partition) :
    s.format.chunkOf id ∈ s.chain partition ∧ s.format.rowOf id < s.format.rowsPerChunk ∧
      id = s.format.slotId (s.format.chunkOf id) (s.format.rowOf id) := by
  obtain ⟨chunk, hc, row, hr, rfl⟩ := h.free_slot partition id hid
  have hlt := h.chain_lt partition chunk hc
  rw [h.chunkOf_slotId hlt hr, h.rowOf_slotId hlt hr]
  exact ⟨hc, hr, rfl⟩

/-- The row of a free id is empty, the id is not out, and in the current chunk the row was
claimed before. -/
theorem Sound.row_of_free (h : Sound s reserved) {id : SlotId}
    (hid : id ∈ s.freeList partition) :
    s.cell? (s.format.chunkOf id) (s.format.rowOf id) = none ∧ id ∉ reserved ∧
      (s.current? partition = some (s.format.chunkOf id) →
        s.format.rowOf id < s.fill (s.format.chunkOf id)) := by
  obtain ⟨hc, hr, heq⟩ := h.place_of_free hid
  have hfree := h.of_free hc hr (heq ▸ hid)
  rwa [← heq] at hfree

/-! ### The next id -/

/-- What is seen after the id on top of the free stack of a partition was issued. -/
structure Popped (s s' : RowStore T V) (partition : Nat) (id : SlotId) (rest : List SlotId) :
    Prop extends SameChains s s' where
  free : ∀ q, s'.freeList q = if q = partition then rest else s.freeList q
  /-- A row behind the fill index is the next one to be claimed. -/
  row_le : s.format.rowOf id ≤ s.fill (s.format.chunkOf id)
  /-- Such a row is claimed now; a hole was claimed before. -/
  fill : ∀ c, s'.fill c =
    if c = s.format.chunkOf id ∧ s.fill c ≤ s.format.rowOf id then s.fill c + 1 else s.fill c

/-- The id on top of the free stack is to spare. -/
theorem issueSpare_popped (h : Sound s reserved) {id : SlotId} {rest : List SlotId}
    (hfree : s.freeList partition = id :: rest) :
    ∃ s', s.issueSpare partition = (some id, s') ∧ Sound s' (id :: reserved) ∧
      Popped s s' partition id rest := by
  cases hp : s.partitions[partition]? with
  | none => simp [freeList, hp] at hfree
  | some p =>
    have hlist : p.freeIds.toList = id :: rest := by rw [← freeList_eq hp, hfree]
    have hmem : id ∈ s.freeList partition := by
      rw [hfree]
      exact List.mem_cons_self ..
    obtain ⟨hchain, hrow, heq⟩ := h.place_of_free hmem
    have hspare := issueSpare_of_owned h.toChained hp hlist hchain
    obtain ⟨-, -, -, -, -, hsound⟩ := issueSpare_of_free h hp hlist
    rw [hspare] at hsound
    -- The order of the stack is what keeps an issue from passing over a row.
    have hle : s.format.rowOf id ≤ s.fill (s.format.chunkOf id) := by
      rcases h.next_free_row hchain hrow (heq ▸ hfree) with hlt | ⟨hnext, -⟩ <;> omega
    refine ⟨_, hspare, hsound, ⟨?_, fun q => ?_, hle, fun c => ?_⟩⟩
    · exact (SameChains.setFreeIds s partition _).trans (SameChains.modifyRows _ _ _)
    · refine (freeList_setFreeIds s hp p.freeIds.pop.2 q).trans ?_
      rw [(BoundedStack.pop_of_toList_cons hlist).2]
    · refine (fill_claimUpTo _ (h.chain_lt partition _ hchain) (s.format.rowOf id) c).trans ?_
      show (if _ then max (s.fill _) _ else s.fill c) = _
      by_cases hc : c = s.format.chunkOf id
      · rw [if_pos hc, hc]
        simp only [true_and]
        split <;> omega
      · rw [if_neg hc, if_neg fun hand => hc hand.1]

/-- The ids below the top of the free stack move up, and the current chunk claims no row. -/
theorem issueSpare_pops (h : Sound s reserved) {id : SlotId} {rest : List SlotId}
    (hfree : s.freeList partition = id :: rest) :
    ∃ s', s.issueSpare partition = (some id, s') ∧ Sound s' (id :: reserved) ∧
      SameChains s s' ∧ s'.freeList partition = rest ∧
        ∀ c, s.current? partition = some c → s'.fill c = s.fill c := by
  obtain ⟨s', hspare, hsound, hpopped⟩ := issueSpare_popped h hfree
  refine ⟨s', hspare, hsound, hpopped.toSameChains, ?_, fun c hcurrent => ?_⟩
  · rw [hpopped.free, if_pos rfl]
  · rw [hpopped.fill, if_neg]
    rintro ⟨rfl, hrow⟩
    -- A free row of the current chunk lies below its fill index.
    have hmem : id ∈ s.freeList partition := by
      rw [hfree]
      exact List.mem_cons_self ..
    exact Nat.not_lt.mpr hrow ((h.row_of_free hmem).2.2 hcurrent)

section growth

variable [ComponentType T]

theorem issue_of_spare {id : SlotId} (hspare : s.issueSpare partition = (some id, s')) :
    s.issue partition = (.ok id, s') := by
  rw [issue, hspare]

/-- With no free ids, the next row of the current chunk is issued. -/
theorem issue_of_no_free {chunk : Nat} (hcurrent : s.current? partition = some chunk)
    (hempty : s.freeList partition = []) (hspare : s.fill chunk < s.format.rowsPerChunk) :
    (s.issue partition).1 = .ok (s.format.slotId chunk (s.fill chunk)) := by
  cases hp : s.partitions[partition]? with
  | none => simp [current?, hp] at hcurrent
  | some p =>
    have hclaim : s.issueSpare partition =
        (some (s.format.slotId chunk (s.fill chunk)), s.modifyRows chunk (·.push none)) := by
      rw [issueSpare_of_no_free hp (by rw [← freeList_eq hp, hempty]), claimNext_eq, hcurrent]
      simp only
      rw [if_pos hspare]
    rw [issue_of_spare hclaim]

/-- Ids are issued from the free stack, from its top to its bottom, and then from the current
chunk. -/
theorem answers_issues (h : Sound s reserved) {chunk : Nat}
    (hcurrent : s.current? partition = some chunk)
    (hspare : s.fill chunk < s.format.rowsPerChunk) :
    s.answers (List.replicate ((s.freeList partition).length + 1) (.issue partition)) =
      (s.freeList partition ++ [s.format.slotId chunk (s.fill chunk)]).map fun id =>
        .ok (.id id) := by
  generalize hfree : s.freeList partition = free
  induction free generalizing s reserved with
  | nil =>
    simp only [List.length_nil, List.replicate_succ, List.replicate_zero, answers, perform,
      answering, issue_of_no_free hcurrent hfree hspare]
    rfl
  | cons id rest ih =>
    obtain ⟨s₁, hpop, hsound, hsame, hrest, hfill⟩ := issueSpare_pops h hfree
    have hlater := ih hsound (by rw [hsame.current?, hcurrent])
      (by rw [hfill chunk hcurrent, hsame.format]; exact hspare) hrest
    rw [hfill chunk hcurrent, hsame.format] at hlater
    rw [List.length_cons, List.replicate_succ, answers]
    simp only [perform, issue_of_spare hpop, answering]
    rw [hlater]
    rfl

/-- An insertion answers the id that an issue would. -/
theorem insert_answer (h : Sound s reserved) (partition item : Nat) (values : List V) :
    (s.insert partition item values).1 = (s.issue partition).1 := by
  cases hissue : s.issue partition with
  | mk answer s₁ =>
    cases answer with
    | error e => simp only [insert, hissue]
    | ok id =>
      rw [insert_eq_occupy h hissue]
      obtain ⟨chunk, row, rfl, hissued, hsound⟩ := issue_ok h hissue
      have hid : s₁.format.slotId chunk row ∈ s.format.slotId chunk row :: reserved := by
        rw [hissued.steady.format]
        exact List.mem_cons_self ..
      obtain ⟨s₂, hoccupy, -⟩ :=
        occupy_reserved hsound hissued.mem_chain hissued.lt_fill hid item values
      rw [hissued.steady.format] at hoccupy
      rw [hoccupy]

/-! ### The id that was given up -/

/-- Where the id that a removal gave up is, and when it is issued again. -/
structure Reused (s : RowStore T V) (partition : Nat) (id : SlotId) : Prop where
  /-- The id lies on top of the free stack, or it is the next row of the current chunk. -/
  place : (∃ rest, s.freeList partition = id :: rest) ∨
    id ∉ s.freeList partition ∧ ∃ chunk, s.current? partition = some chunk ∧
      s.fill chunk < s.format.rowsPerChunk ∧ id = s.format.slotId chunk (s.fill chunk)
  /-- It is issued next unless it is a row of the current chunk and other ids are free. -/
  issue_iff : (s.issue partition).1 = .ok id ↔
    id ∈ s.freeList partition ∨ s.freeList partition = []
  insert_iff : ∀ item values, (s.insert partition item values).1 = .ok id ↔
    id ∈ s.freeList partition ∨ s.freeList partition = []
  /-- A row of the current chunk is issued right after the ids on the free stack. -/
  turn : id ∉ s.freeList partition →
    s.answers (List.replicate ((s.freeList partition).length + 1) (.issue partition)) =
      (s.freeList partition ++ [id]).map fun id => .ok (.id id)

/-- An id on top of the free stack. -/
theorem Reused.of_top (h : Sound s reserved) {id : SlotId} {rest : List SlotId}
    (hfree : s.freeList partition = id :: rest) : s.Reused partition id := by
  obtain ⟨s₁, hpop, -⟩ := issueSpare_pops h hfree
  have hmem : id ∈ s.freeList partition := by
    rw [hfree]
    exact List.mem_cons_self ..
  have hissue : (s.issue partition).1 = .ok id := by rw [issue_of_spare hpop]
  refine ⟨.inl ⟨rest, hfree⟩, ?_, fun item values => ?_, fun hnot => absurd hmem hnot⟩
  · simp only [hissue, hmem, true_or]
  · simp only [insert_answer h, hissue, hmem, true_or]

/-- The next row of the current chunk. -/
theorem Reused.of_next (h : Sound s reserved) {chunk : Nat}
    (hcurrent : s.current? partition = some chunk)
    (hspare : s.fill chunk < s.format.rowsPerChunk) :
    s.Reused partition (s.format.slotId chunk (s.fill chunk)) := by
  have hnot : s.format.slotId chunk (s.fill chunk) ∉ s.freeList partition := fun hmem =>
    Nat.lt_irrefl _ ((h.of_free (mem_chain_of_current? hcurrent) hspare hmem).2.2 hcurrent)
  have hissue : (s.issue partition).1 = .ok (s.format.slotId chunk (s.fill chunk)) ↔
      s.format.slotId chunk (s.fill chunk) ∈ s.freeList partition ∨
        s.freeList partition = [] := by
    cases hfree : s.freeList partition with
    | nil => simp only [issue_of_no_free hcurrent hfree hspare, or_true]
    | cons top rest =>
      obtain ⟨s₁, hpop, -⟩ := issueSpare_pops h hfree
      rw [issue_of_spare hpop]
      rw [hfree] at hnot
      -- The id on top is another one.
      constructor
      · intro heq
        cases heq
        exact absurd (List.mem_cons_self ..) hnot
      · rintro (hmem | hnil)
        · exact absurd hmem hnot
        · cases hnil
  refine ⟨.inr ⟨hnot, chunk, hcurrent, hspare, rfl⟩, hissue, fun item values => ?_,
    fun _ => answers_issues h hcurrent hspare⟩
  rw [insert_answer h]
  exact hissue

theorem evict_reused (h : Sound s reserved) {α : Type} {id : SlotId}
    {accept : RowView V → Except StoreError α} {evicted : Evicted α V}
    (hevict : s.evict partition id accept = (.ok evicted, s')) :
    s'.Reused partition evicted.id := by
  obtain ⟨chunk, row, given, cell, hlocate, hcell, -, -, -, hid, hemptied⟩ :=
    evict_emptied h hevict
  have hsound := hemptied.sound
  have hvacated := hemptied.vacated
  have hgave := hemptied.gaveUp
  have hfree := hgave.free partition
  by_cases hstacked : s.LeavesHole chunk row ∨ s.current? partition ≠ some chunk
  · rw [if_pos ⟨rfl, hstacked⟩, ← hid] at hfree
    exact .of_top hsound hfree
  · -- The last row of the current chunk was given up, so it is the next one again.
    obtain ⟨hhole, hcurrent⟩ := not_or.mp hstacked
    have hlast : s'.fill chunk = given := by
      rw [hgave.fill, if_pos ⟨rfl, hhole⟩, hgave.given_eq, if_neg hhole]
    have hlt : given < s.format.rowsPerChunk := h.lt_rowsPerChunk hvacated.given_lt
    rw [hid, ← hvacated.same.format, ← hlast]
    refine .of_next hsound ?_ ?_
    · rw [hvacated.same.current?]
      exact Decidable.not_not.mp hcurrent
    · rw [hlast, hvacated.same.format]
      exact hlt

end growth

end RowStore

namespace Pool

variable {T V : Type} [ComponentType T]

/-- An id that a removal gave up is the next one issued exactly when it went on the free stack
or no other id is free. -/
theorem Orderly.reused {rowBits : Nat} {limit : Option Nat} {format : IdFormat}
    (hformat : IdFormat.create rowBits limit = .ok format) {calls : List (RowStore.Call T V)}
    (horderly : (Pool.empty format).Orderly calls) {α : Type} {partition : Nat} {id : SlotId}
    {accept : RowView V → Except StoreError α} {evicted : Evicted α V} {store : RowStore T V}
    (hevict : ((Pool.empty format).after calls).store.evict partition id accept =
      (.ok evicted, store)) : store.Reused partition evicted.id :=
  RowStore.evict_reused (horderly.sound_of_empty hformat) hevict

/-- Five items are stored in chunks of four rows, and the first one is removed: then one id of
the old chunk is free, and the current chunk holds the fifth item. -/
def aging : List (RowStore.Call Sample Nat) :=
  [.newPartition [], .insert 0 0 [], .insert 0 1 [], .insert 0 2 [], .insert 0 3 [],
    .insert 0 4 [], .evict 0 0 fun _ => .ok ()]

def aged : Pool Sample Nat := (Pool.empty ⟨2, 1 <<< 28⟩).after aging

theorem aging_orderly : (Pool.empty ⟨2, 1 <<< 28⟩ : Pool Sample Nat).Orderly aging := by
  simp only [aging, Orderly, Allows, and_self]

/-- The fifth item gives up id 4. -/
theorem aged_released :
    ∃ store, aged.store.release 0 4 = (.ok ⟨(), 4, [], 4⟩, store) ∧ store.freeList 0 = [3] := by
  have hanswer : (aged.store.release 0 4).1.toOption = some ⟨(), 4, [], 4⟩ := by decide +kernel
  have hfree : (aged.store.release 0 4).2.freeList 0 = [3] := by decide +kernel
  cases hrelease : aged.store.release 0 4 with
  | mk answer store =>
    rw [hrelease] at hanswer hfree
    cases answer with
    | error e => cases hanswer
    | ok evicted =>
      cases hanswer
      exact ⟨store, rfl, hfree⟩

theorem reused_aged :
    IdFormat.create 2 none = .ok ⟨2, 1 <<< 28⟩ ∧
      (Pool.empty ⟨2, 1 <<< 28⟩ : Pool Sample Nat).Orderly aging ∧
      ∃ evicted store, aged.store.release 0 4 = (.ok evicted, store) ∧ evicted.id = 4 ∧
        store.freeList 0 = [3] ∧ store.Reused 0 evicted.id := by
  have hformat : IdFormat.create 2 none = .ok ⟨2, 1 <<< 28⟩ := rfl
  obtain ⟨store, hrelease, hfree⟩ := aged_released
  exact ⟨hformat, aging_orderly, _, store, hrelease, rfl, hfree,
    Orderly.reused hformat aging_orderly hrelease⟩

/-- So an id that was given up in the current chunk need not be the next one issued: here id 3
is issued, and id 4 after it. -/
theorem given_up_passed_over :
    ¬ ∀ calls, (Pool.empty ⟨2, 1 <<< 28⟩ : Pool Sample Nat).Orderly calls →
      ∀ partition id evicted store,
        ((Pool.empty ⟨2, 1 <<< 28⟩).after calls).store.release partition id =
          (.ok evicted, store) → (store.issue partition).1 = .ok evicted.id := by
  intro hnext
  obtain ⟨store, hrelease, -⟩ := aged_released
  have hfour := hnext aging aging_orderly 0 4 _ store hrelease
  have hthree : ((aged.store.release 0 4).2.issue 0).1.toOption = some 3 := by decide +kernel
  rw [hrelease, hfour] at hthree
  cases hthree

end Pool

end ArchetypeStore

import ArchetypeStore.Proofs.RowStore.Insert

/-! # What a removal does

  A removal takes the item and its values out of one row and gives up one slot. That is
  the last claimed row of the chunk, whose item moves into the gap, or else the row itself.
  Room on the free stack is made before the caller's check; it can be seen by nobody. Where
  the memory refuses it nothing is removed.
-/

namespace ArchetypeStore.RowStore

variable {T V : Type} {s s' : RowStore T V} {reserved : List SlotId} {partition : Nat}

/-! ### Room on the free stack -/

/-- The two stores differ at most in the room on their free stacks. -/
structure Alike (s s' : RowStore T V) : Prop extends SameChains s s' where
  chunks : s'.chunks = s.chunks
  ids : s'.ids = s.ids
  free : ∀ q, s'.freeList q = s.freeList q
  memory : s'.memory = s.memory

namespace Alike

theorem refl (s : RowStore T V) : Alike s s := ⟨.refl s, rfl, rfl, fun _ => rfl, rfl⟩

variable (h : Alike s s')

include h

theorem fill (c : Nat) : s'.fill c = s.fill c := by rw [RowStore.fill, RowStore.fill, h.chunks]

theorem cell? (c r : Nat) : s'.cell? c r = s.cell? c r := by
  rw [RowStore.cell?, RowStore.cell?, h.chunks]

theorem view (c r : Nat) : s'.view c r = s.view c r := by
  rw [RowStore.view, RowStore.view, h.format, h.cell?]

theorem sound (hs : Sound s reserved) (hroom : s'.FreeFits) : Sound s' reserved :=
  hs.congr h.toSameChains h.fill (fun c r => by rw [h.cell?]) h.free hroom

theorem dense (hdense : Dense s) : Dense s' := by
  intro c r hr
  rw [h.fill] at hr
  rw [h.cell?]
  exact hdense c r hr

end Alike

/-- Free ids are no markers, so a drained stack can be copied. -/
theorem Sound.ne_marker_of_free (h : Sound s reserved) {id : SlotId}
    (hid : id ∈ s.freeList partition) : id ≠ UInt32.ofNat SlotId.detachedBit := by
  obtain ⟨chunk, hc, row, hr, rfl⟩ := h.free_slot partition id hid
  exact SlotId.ne_marker_of_isPlain (h.slotId_isPlain (h.chain_lt partition chunk hc) hr)

theorem Alike.setFreeIds {p : Partition T} (hp : s.partitions[partition]? = some p)
    {freeIds : FreeStack} (hlist : freeIds.toList = p.freeIds.toList) :
    Alike s (s.setFreeIds partition freeIds) := by
  refine ⟨.setFreeIds s partition freeIds, rfl, rfl, fun q => ?_, rfl⟩
  rw [freeList_setFreeIds s hp]
  split
  · rename_i heq
    rw [hlist, heq, freeList_eq hp]
  · rfl

/-- A free stack that is copied to a wider one keeps its ids in their order. -/
theorem Sound.copy_free (h : Sound s reserved) {p : Partition T}
    (hp : s.partitions[partition]? = some p) {wider : FreeStack} (hempty : wider.toList = [])
    (hzero : wider.top = 0) (hwide : p.freeIds.top < wider.capacity) :
    (wider.pushAll p.freeIds.drain.1.reverse).toList = p.freeIds.toList ∧
      (wider.pushAll p.freeIds.drain.1.reverse).capacity = wider.capacity ∧
      (wider.pushAll p.freeIds.drain.1.reverse).top = p.freeIds.top := by
  have hlen : p.freeIds.toList.length = p.freeIds.top := BoundedStack.length_toList _
  -- Draining turns the order around, and pushing turns it back.
  rw [BoundedStack.drain_toList]
  have hvalues : ∀ value ∈ p.freeIds.toList.reverse,
      value ≠ UInt32.ofNat SlotId.detachedBit := by
    intro value hvalue
    rw [List.mem_reverse, ← freeList_eq hp] at hvalue
    exact h.ne_marker_of_free hvalue
  have hroom : wider.top + p.freeIds.toList.reverse.length ≤ wider.capacity := by
    rw [List.length_reverse, hlen]
    omega
  obtain ⟨hlist, hcap, htop⟩ := BoundedStack.pushAll_toList hvalues hroom
  refine ⟨?_, hcap, ?_⟩
  · rw [hlist, hempty, List.reverse_reverse, List.append_nil]
  · rw [htop, List.length_reverse, hlen, hzero, Nat.zero_add]

theorem makeRoom_ok (h : Sound s reserved) (hmake : s.makeRoom partition = (.ok (), s')) :
    Alike s s' ∧ Sound s' reserved ∧ ∃ p, s'.partitions[partition]? = some p ∧
      p.freeIds.top < p.freeIds.capacity := by
  unfold makeRoom at hmake
  split at hmake
  · cases hmake
  · rename_i p hp
    split at hmake
    · rename_i hroom
      cases hmake
      exact ⟨.refl s, h, p, hp, hroom⟩
    · rename_i hnoroom
      split at hmake
      · cases hmake
      · rename_i wider hwider
        cases hmake
        -- The new capacity is at least twice the old one, and never zero.
        have hwide : p.freeIds.top < wider.capacity := by
          have hfits := h.room partition p hp
          have hpos := IdFormat.rowsPerChunk_pos s.format
          rw [BoundedStack.allocate_ok hwider]
          simp only [BoundedStack.ofCapacity]
          omega
        obtain ⟨hlist, hcap, htop⟩ := h.copy_free hp
          (by rw [BoundedStack.allocate_ok hwider]; rfl)
          (by rw [BoundedStack.allocate_ok hwider]; rfl) hwide
        have halike := Alike.setFreeIds hp hlist
        refine ⟨halike, halike.sound h (h.room.setFreeIds partition (by omega)),
          { p with freeIds := wider.pushAll p.freeIds.drain.1.reverse }, ?_, ?_⟩
        · rw [setFreeIds, partitions_modifyPartition, if_pos rfl, hp]
          rfl
        · rw [hcap, htop]
          exact hwide

/-- Each free id lies on its stack once, and there are no more ids than slots. -/
theorem Sound.length_freeList_le (h : Sound s reserved) (partition : Nat) :
    (s.freeList partition).length ≤ 1 <<< 30 := by
  have hnodup : (s.freeList partition).Nodup := by
    rw [List.nodup_iff_count]
    intro id
    by_cases hid : id ∈ s.freeList partition
    · obtain ⟨chunk, hc, row, hr, rfl⟩ := h.free_slot partition id hid
      have hone := h.shares_one partition chunk hc row hr
      unfold shares at hone
      omega
    · rw [List.count_eq_zero.mpr hid]
      exact Nat.zero_le 1
  -- Distinct plain ids are distinct numbers below the limit.
  have hnat : ((s.freeList partition).map UInt32.toNat).Nodup :=
    List.Pairwise.map UInt32.toNat (fun id id' hne heq => hne (UInt32.toNat_inj.mp heq)) hnodup
  have hsub : (s.freeList partition).map UInt32.toNat ⊆ List.range (1 <<< 30) := by
    intro number hnumber
    obtain ⟨id, hid, rfl⟩ := List.mem_map.mp hnumber
    obtain ⟨chunk, hc, row, hr, rfl⟩ := h.free_slot partition id hid
    rw [List.mem_range]
    exact (SlotId.isPlain_iff _).mp (h.slotId_isPlain (h.chain_lt partition chunk hc) hr)
  have hle := hnat.length_le_of_subset hsub
  rwa [List.length_map, List.length_range] at hle

/-- The free stack of a partition is full, and the memory refuses it more room. -/
def LacksRoom (s : RowStore T V) (partition : Nat) (e : StoreError) : Prop :=
  ∃ p, s.partitions[partition]? = some p ∧ p.freeIds.capacity ≤ p.freeIds.size ∧
    (BoundedStack.allocate s.memory .freeIds .bits32
      (max (p.freeIds.capacity * 2) s.format.rowsPerChunk) : Except StoreError FreeStack) =
        .error e

/-- The free stack of a partition has room for one more id, or gets it. -/
def FindsRoom (s : RowStore T V) (partition : Nat) : Prop := ∀ e, ¬ s.LacksRoom partition e

theorem findsRoom_or_lacksRoom (s : RowStore T V) (partition : Nat) :
    s.FindsRoom partition ∨ ∃ e, s.LacksRoom partition e := by
  rcases Classical.em (∃ e, s.LacksRoom partition e) with hlacks | hfinds
  · exact .inr hlacks
  · exact .inl (not_exists.mp hfinds)

/-- A free stack stays far below the sizes that have no layout. -/
theorem Sound.grown_le (h : Sound s reserved) {p : Partition T}
    (hp : s.partitions[partition]? = some p) (hfull : p.freeIds.capacity ≤ p.freeIds.size) :
    max (p.freeIds.capacity * 2) s.format.rowsPerChunk ≤ 1 <<< 31 := by
  have hlen := h.length_freeList_le partition
  rw [freeList_eq hp, BoundedStack.length_toList] at hlen
  have hrows : s.format.rowsPerChunk ≤ 1 <<< 24 := by
    rw [IdFormat.rowsPerChunk, Nat.one_shiftLeft]
    exact Nat.pow_le_pow_right (by decide) h.valid.rowBits_le
  omega

/-- So the memory answers with the bytes that were asked for. -/
theorem LacksRoom.failed (h : Sound s reserved) {e : StoreError}
    (hlacks : s.LacksRoom partition e) : ∃ bytes, e = .allocationFailed bytes := by
  obtain ⟨p, hp, hfull, hrefused⟩ := hlacks
  exact ⟨_, BoundedStack.allocate_error (h.grown_le hp hfull) hrefused⟩

/-- Where room is refused nothing happens. -/
theorem makeRoom_of_lacksRoom {e : StoreError} (hlacks : s.LacksRoom partition e) :
    s.makeRoom partition = (.error e, s) := by
  obtain ⟨p, hp, hfull, hrefused⟩ := hlacks
  simp only [makeRoom, hp, if_neg (Nat.not_lt.mpr hfull), hrefused]

/-- Room for one more free id is there, can be had or is refused by the memory. -/
theorem makeRoom_cases {p : Partition T} (hp : s.partitions[partition]? = some p) :
    (∃ s₁, s.makeRoom partition = (.ok (), s₁)) ∨ ∃ e, s.LacksRoom partition e := by
  by_cases hroom : p.freeIds.size < p.freeIds.capacity
  · exact .inl ⟨s, by simp only [makeRoom, hp, if_pos hroom]⟩
  · cases hmade : (BoundedStack.allocate s.memory .freeIds .bits32
        (max (p.freeIds.capacity * 2) s.format.rowsPerChunk) : Except StoreError FreeStack) with
    | error e => exact .inr ⟨e, p, hp, Nat.le_of_not_lt hroom, hmade⟩
    | ok wider => exact .inl ⟨_, by simp only [makeRoom, hp, if_neg hroom, hmade]; rfl⟩

/-! ### Emptying a row -/

/-- What is seen after a row was emptied and the slot of row `given` was given up. -/
structure Vacated (s s' : RowStore T V) (chunk row given : Nat) : Prop where
  same : SameChains s s'
  given_lt : given < s.fill chunk
  cell : ∀ c r, s'.cell? c r =
    if c = chunk ∧ r = given then none
    else if c = chunk ∧ r = row then s.cell? chunk given
    else s.cell? c r
  /-- Only an item that moved into the gap has a new id. -/
  ids : given = row ∧ s'.ids = s.ids ∨
    given ≠ row ∧ ∃ moved, s.cell? chunk given = some moved ∧
      s'.ids = (s.relocate moved.item (s.format.slotId chunk row)).ids

/-- Emptying the row leaves a hole: the last claimed row of the chunk is another one and has
no item that could move. -/
def LeavesHole (s : RowStore T V) (chunk row : Nat) : Prop :=
  row ≠ s.fill chunk - 1 ∧ s.cell? chunk (s.fill chunk - 1) = none

instance (s : RowStore T V) (chunk row : Nat) : Decidable (s.LeavesHole chunk row) :=
  inferInstanceAs (Decidable (_ ∧ _))

/-- Which slot is given up when a row is emptied, and where its id goes: a hole and any row of
an old chunk lie on the free stack, a row of the current chunk is the next one to be claimed. -/
structure GaveUp (s s' : RowStore T V) (partition chunk row given : Nat) : Prop where
  given_eq : given = if s.LeavesHole chunk row then row else s.fill chunk - 1
  fill : ∀ c, s'.fill c =
    if c = chunk ∧ ¬ s.LeavesHole chunk row then s.fill chunk - 1 else s.fill c
  free : ∀ q, s'.freeList q =
    if q = partition ∧ (s.LeavesHole chunk row ∨ s.current? partition ≠ some chunk) then
      s.format.slotId chunk given :: s.freeList q
    else s.freeList q

/-- What holds after a row was emptied and the slot of row `given` was given up. -/
structure Emptied (s s' : RowStore T V) (reserved : List SlotId)
    (partition chunk row given : Nat) : Prop where
  sound : Sound s' reserved
  vacated : Vacated s s' chunk row given
  gaveUp : GaveUp s s' partition chunk row given
  dense : Dense s → Dense s'

/-- A store that is alike is emptied alike. -/
theorem Emptied.of_alike {s₁ : RowStore T V} (halike : Alike s s₁) {chunk row given : Nat}
    (h : Emptied s₁ s' reserved partition chunk row given) :
    Emptied s s' reserved partition chunk row given := by
  have hhole : s₁.LeavesHole chunk row ↔ s.LeavesHole chunk row := by
    unfold LeavesHole
    rw [halike.fill, halike.cell?]
  refine ⟨h.sound, ⟨halike.toSameChains.trans h.vacated.same, ?_, ?_, ?_⟩, ⟨?_, ?_, ?_⟩,
    fun hdense => h.dense (halike.dense hdense)⟩
  · rw [← halike.fill]
    exact h.vacated.given_lt
  · simpa only [halike.cell?] using h.vacated.cell
  · simpa only [halike.ids, halike.cell?, halike.format, relocate, setId, idOf] using
      h.vacated.ids
  · simpa only [hhole, halike.fill] using h.gaveUp.given_eq
  · simpa only [hhole, halike.fill] using h.gaveUp.fill
  · simpa only [hhole, halike.free, halike.format, halike.current?] using h.gaveUp.free

theorem giveUpLast_of_current {chunk : Nat} (hcurrent : s.current? partition = some chunk)
    (last : Nat) : s.giveUpLast partition chunk last = s.modifyRows chunk Array.pop :=
  if_pos hcurrent

theorem giveUpLast_of_old {chunk : Nat} (hold : s.current? partition ≠ some chunk)
    (last : Nat) : s.giveUpLast partition chunk last =
      (s.modifyRows chunk Array.pop).pushFree partition (s.format.slotId chunk last) :=
  if_neg hold

/-- A push on a stack with room keeps within its capacity. -/
theorem FreeFits.pushFree (hfits : s.FreeFits) {p : Partition T}
    (hp : s.partitions[partition]? = some p) (hroom : p.freeIds.top < p.freeIds.capacity)
    {id : SlotId} (hid : id.isPlain = true) : (s.pushFree partition id).FreeFits := by
  intro q p' hp'
  rw [RowStore.pushFree, partitions_modifyPartition] at hp'
  split at hp'
  · rename_i heq
    rw [heq, hp] at hp'
    cases hp'
    have htop := BoundedStack.push_top (SlotId.ne_marker_of_isPlain hid) hroom
    simp only [BoundedStack.push_capacity, htop]
    exact hroom
  · exact hfits q p' hp'

/-- The last claimed row of a chunk, which is published, is given up. -/
theorem giveUpLast_sound (h : Sound s reserved) {p : Partition T}
    (hp : s.partitions[partition]? = some p) (hroom : p.freeIds.top < p.freeIds.capacity)
    {chunk : Nat} (hc : chunk ∈ s.chain partition) {cell : Cell V}
    (hlast : s.cell? chunk (s.fill chunk - 1) = some cell) :
    Sound (s.giveUpLast partition chunk (s.fill chunk - 1)) reserved ∧
      SameChains s (s.giveUpLast partition chunk (s.fill chunk - 1)) ∧
      (∀ c, (s.giveUpLast partition chunk (s.fill chunk - 1)).fill c =
        if c = chunk then s.fill chunk - 1 else s.fill c) ∧
      (∀ c r, (s.giveUpLast partition chunk (s.fill chunk - 1)).cell? c r =
        if c = chunk ∧ r = s.fill chunk - 1 then none else s.cell? c r) ∧
      (s.giveUpLast partition chunk (s.fill chunk - 1)).ids = s.ids ∧
      (∀ q, (s.giveUpLast partition chunk (s.fill chunk - 1)).freeList q =
        if q = partition ∧ s.current? partition ≠ some chunk then
          s.format.slotId chunk (s.fill chunk - 1) :: s.freeList q else s.freeList q) := by
  have hlt := h.chain_lt partition chunk hc
  have hfill := fill_pop s hlt
  have hcell := cell?_pop s hlt
  by_cases hcurrent : s.current? partition = some chunk
  · rw [giveUpLast_of_current hcurrent]
    have hsame := SameChains.modifyRows s chunk Array.pop
    refine ⟨h.giveUpCurrent hcurrent hlast hsame hfill hcell (fun _ => rfl) h.room, hsame, hfill,
      hcell, rfl, fun q => ?_⟩
    rw [if_neg fun hand => hand.2 hcurrent]
    rfl
  · rw [giveUpLast_of_old hcurrent]
    have hplain := h.slotId_isPlain hlt (h.lt_rowsPerChunk (lt_fill_of_cell? hlast))
    have hsame : SameChains s ((s.modifyRows chunk Array.pop).pushFree partition
        (s.format.slotId chunk (s.fill chunk - 1))) :=
      (SameChains.modifyRows s chunk _).trans (SameChains.pushFree _ partition _)
    have hfree := freeList_pushFree (s.modifyRows chunk Array.pop) hp hplain hroom
    have hfits : (s.modifyRows chunk Array.pop).FreeFits := h.room
    refine ⟨h.giveUpOld hc hcurrent hlast hsame hfill hcell hfree
      (hfits.pushFree hp hroom hplain), hsame, hfill, hcell, rfl, fun q => ?_⟩
    rw [hfree]
    simp only [hcurrent, ne_eq, not_false_eq_true, and_true]
    rfl

/-- Moving the last item into the gap keeps the invariant: both rows stay published. -/
theorem moveInto_sound (h : Sound s reserved) {chunk row : Nat} (moved : Cell V)
    {cell : Cell V} (hcell : s.cell? chunk row = some cell) :
    Sound (s.moveInto chunk row moved) reserved ∧ SameChains s (s.moveInto chunk row moved) ∧
      (∀ c, (s.moveInto chunk row moved).fill c = s.fill c) ∧
      (∀ c r, (s.moveInto chunk row moved).cell? c r =
        if c = chunk ∧ r = row then some moved else s.cell? c r) := by
  have hrow := lt_fill_of_cell? hcell
  have hsame : SameChains s (s.moveInto chunk row moved) :=
    (SameChains.modifyRows s chunk _).trans (SameChains.setId _ moved.item _)
  have hfill : ∀ c, (s.moveInto chunk row moved).fill c = s.fill c :=
    fill_setCell s hrow (some moved)
  have hcells : ∀ c r, (s.moveInto chunk row moved).cell? c r =
      if c = chunk ∧ r = row then some moved else s.cell? c r := cell?_setCell s hrow (some moved)
  refine ⟨h.congr hsame hfill ?_ (fun _ => rfl) h.room, hsame, hfill, hcells⟩
  intro c r
  rw [hcells]
  split
  · rename_i heq
    obtain ⟨rfl, rfl⟩ := heq
    rw [hcell]
    rfl
  · rfl

/-- When the last claimed row of a chunk is given up, the others are as they were. -/
theorem Dense.giveUpLast (hdense : Dense s) {chunk : Nat}
    (hfill : ∀ c, s'.fill c = if c = chunk then s.fill chunk - 1 else s.fill c)
    (hcell : ∀ c r, s'.cell? c r =
      if c = chunk ∧ r = s.fill chunk - 1 then none else s.cell? c r) : Dense s' := by
  intro c r hr
  rw [hfill] at hr
  rw [hcell]
  by_cases hc : c = chunk
  · subst hc
    rw [if_pos rfl] at hr
    rw [if_neg fun heq => Nat.ne_of_lt hr heq.2]
    exact hdense c r (by omega)
  · rw [if_neg hc] at hr
    rw [if_neg fun heq => hc heq.1]
    exact hdense c r hr

theorem Dense.moveInto (hdense : Dense s) {chunk row : Nat} {moved : Cell V}
    (hfill : ∀ c, s'.fill c = s.fill c)
    (hcell : ∀ c r, s'.cell? c r =
      if c = chunk ∧ r = row then some moved else s.cell? c r) : Dense s' := by
  intro c r hr
  rw [hfill] at hr
  rw [hcell]
  split
  · rfl
  · exact hdense c r hr

section

variable {p : Partition T} {chunk row : Nat} {cell : Cell V} (h : Sound s reserved)
  (hp : s.partitions[partition]? = some p) (hroom : p.freeIds.top < p.freeIds.capacity)
  (hc : chunk ∈ s.chain partition)

include h hp hroom hc

/-- The last claimed row of a chunk is emptied. -/
theorem emptied_last (hcell : s.cell? chunk (s.fill chunk - 1) = some cell) :
    Emptied s (s.giveUpLast partition chunk (s.fill chunk - 1)) reserved partition chunk
      (s.fill chunk - 1) (s.fill chunk - 1) := by
  obtain ⟨hsound, hsame, hfill, hcells, hids, hfree⟩ := giveUpLast_sound h hp hroom hc hcell
  have hhole : ¬ s.LeavesHole chunk (s.fill chunk - 1) := fun hhole => hhole.1 rfl
  refine ⟨hsound, ⟨hsame, lt_fill_of_cell? hcell, ?_, .inl ⟨rfl, hids⟩⟩, ⟨?_, ?_, ?_⟩,
    fun hdense => hdense.giveUpLast hfill hcells⟩
  · intro c r
    rw [hcells]
    split <;> rfl
  · rw [if_neg hhole]
  · simpa only [hhole, not_false_eq_true, and_true] using hfill
  · simpa only [hhole, false_or] using hfree

/-- The last row is reserved. It must not move, so the gap stays. -/
theorem emptied_hole (hcell : s.cell? chunk row = some cell) (hhole : s.LeavesHole chunk row) :
    Emptied s ((s.setCell chunk row none).pushFree partition (s.format.slotId chunk row)) reserved
      partition chunk row row := by
  have hrow := lt_fill_of_cell? hcell
  have hplain := h.slotId_isPlain (h.chain_lt partition chunk hc) (h.lt_rowsPerChunk hrow)
  have hsame : SameChains s
      ((s.setCell chunk row none).pushFree partition (s.format.slotId chunk row)) :=
    (SameChains.modifyRows s chunk _).trans (SameChains.pushFree _ partition _)
  have hfill := fill_setCell s hrow none
  have hcells := cell?_setCell s hrow none
  have hfree := freeList_pushFree (s.setCell chunk row none) hp hplain hroom
  have hfits : (s.setCell chunk row none).FreeFits := h.room
  refine ⟨?_, ⟨hsame, hrow, ?_, .inl ⟨rfl, rfl⟩⟩, ⟨?_, ?_, ?_⟩, ?_⟩
  · exact h.leaveHole hc hcell hsame hfill hcells hfree (hfits.pushFree hp hroom hplain)
  · intro c r
    rw [pushFree, cell?_modifyPartition, hcells]
    split <;> rfl
  · rw [if_pos hhole]
  · intro c
    rw [if_neg fun hand => hand.2 hhole]
    exact hfill c
  · intro q
    rw [hfree]
    simp only [hhole, true_or, and_true]
    rfl
  · -- A dense chunk has no empty row at its end.
    intro hdense
    have hlast := hdense chunk (s.fill chunk - 1) (by omega)
    rw [hhole.2] at hlast
    cases hlast

/-- First the last item is stored a second time, then its old row is given up. -/
theorem emptied_move (hcell : s.cell? chunk row = some cell) (hne : row ≠ s.fill chunk - 1)
    {moved : Cell V} (hmoved : s.cell? chunk (s.fill chunk - 1) = some moved) :
    Emptied s ((s.moveInto chunk row moved).giveUpLast partition chunk (s.fill chunk - 1)) reserved
      partition chunk row (s.fill chunk - 1) := by
  obtain ⟨hsound₁, hsame₁, hfill₁, hcells₁⟩ := moveInto_sound h moved hcell
  have hhole : ¬ s.LeavesHole chunk row := by
    rintro ⟨-, hnone⟩
    rw [hmoved] at hnone
    cases hnone
  have hlast₁ : (s.moveInto chunk row moved).cell? chunk
      ((s.moveInto chunk row moved).fill chunk - 1) = some moved := by
    rw [hfill₁, hcells₁, if_neg (fun heq => hne heq.2.symm), hmoved]
  have hc₁ : chunk ∈ (s.moveInto chunk row moved).chain partition := by
    rw [hsame₁.chain]
    exact hc
  have hp₁ : (s.moveInto chunk row moved).partitions[partition]? = some p := hp
  obtain ⟨hsound, hsame, hfill, hcells, hids, hfree⟩ :=
    giveUpLast_sound hsound₁ hp₁ hroom hc₁ hlast₁
  have hdense : Dense s → Dense _ := fun hdense =>
    (hdense.moveInto hfill₁ hcells₁).giveUpLast hfill hcells
  rw [hfill₁] at hsound hsame hfill hcells hids hfree hdense
  refine ⟨hsound, ⟨hsame₁.trans hsame, lt_fill_of_cell? hmoved, ?_, ?_⟩, ⟨?_, ?_, ?_⟩, hdense⟩
  · intro c r
    rw [hcells, hcells₁, hmoved]
  · exact .inr ⟨fun heq => hne heq.symm, moved, hmoved, hids⟩
  · rw [if_neg hhole]
  · simpa only [hhole, not_false_eq_true, and_true, hfill₁] using hfill
  · intro q
    rw [hfree, hsame₁.current?, hsame₁.format]
    simp only [hhole, false_or]
    rfl

/-- A row is emptied in one of three ways: the last row is given up, the last row moves
into the gap and is given up, or the gap stays. -/
theorem evictRow_emptied (hcell : s.cell? chunk row = some cell) :
    ∃ given s', s.evictRow partition chunk row = (s.format.slotId chunk given, s') ∧
      Emptied s s' reserved partition chunk row given := by
  unfold evictRow
  by_cases hlast : row = s.fill chunk - 1
  · subst hlast
    exact ⟨_, _, if_pos rfl, emptied_last h hp hroom hc hcell⟩
  · simp only [hlast, if_false]
    cases hmoved : s.cell? chunk (s.fill chunk - 1) with
    | none => exact ⟨_, _, rfl, emptied_hole h hp hroom hc hcell ⟨hlast, hmoved⟩⟩
    | some moved => exact ⟨_, _, rfl, emptied_move h hp hroom hc hcell hlast hmoved⟩

end

/-! ### Removal -/

section evict

variable {α : Type} {id : SlotId} {accept : RowView V → Except StoreError α}

/-- Either no item is at an id, or there is one in the row that the id leads to. -/
theorem absent_or_present (s : RowStore T V) (partition : Nat) (id : SlotId) :
    (∀ chunk row, s.locate partition id = some (chunk, row) → s.cell? chunk row = none) ∨
      ∃ chunk row cell, s.locate partition id = some (chunk, row) ∧
        s.cell? chunk row = some cell := by
  cases hlocate : s.locate partition id with
  | none =>
    left
    rintro chunk row ⟨⟩
  | some place =>
    obtain ⟨chunk, row⟩ := place
    cases hcell : s.cell? chunk row with
    | none =>
      left
      rintro chunk' row' ⟨⟩
      exact hcell
    | some cell => exact .inr ⟨chunk, row, cell, rfl, hcell⟩

theorem evict_absent
    (habsent : ∀ chunk row, s.locate partition id = some (chunk, row) → s.cell? chunk row = none) :
    s.evict partition id accept = (.error .entityNotFound, s) := by
  unfold evict
  cases hlocate : s.locate partition id with
  | none => rfl
  | some place => simp only [habsent place.1 place.2 hlocate]

/-- Where an id leads to a row, there is room for one more free id, or the memory refuses
it. -/
theorem makeRoom_of_locate {chunk row : Nat} (hlocate : s.locate partition id = some (chunk, row)) :
    (∃ s₁, s.makeRoom partition = (.ok (), s₁)) ∨ ∃ e, s.LacksRoom partition e := by
  cases hp : s.partitions[partition]? with
  | none =>
    rw [locate, hp] at hlocate
    cases hlocate
  | some p => exact makeRoom_cases hp

theorem FindsRoom.makeRoom (hfinds : s.FindsRoom partition) {chunk row : Nat}
    (hlocate : s.locate partition id = some (chunk, row)) :
    ∃ s₁, s.makeRoom partition = (.ok (), s₁) :=
  (makeRoom_of_locate hlocate).resolve_right fun ⟨e, hlacks⟩ => hfinds e hlacks

section

variable (h : Sound s reserved) {chunk row : Nat} {cell : Cell V}
  (hlocate : s.locate partition id = some (chunk, row)) (hcell : s.cell? chunk row = some cell)

include hlocate hcell

/-- A removal whose room on the free stack is refused does not come to the check. -/
theorem evict_of_lacksRoom {e : StoreError} (hlacks : s.LacksRoom partition e) :
    s.evict partition id accept = (.error e, s) := by
  rw [evict, hlocate]
  simp only [hcell, makeRoom_of_lacksRoom hlacks]

variable {s₁ : RowStore T V} (hmake : s.makeRoom partition = (.ok (), s₁))

include h hmake

/-- A removal that the check refuses makes room on the free stack and no more. -/
theorem evict_refused {e : StoreError} (haccept : accept (s.view chunk row) = .error e) :
    s.evict partition id accept = (.error e, s₁) ∧ Alike s s₁ ∧ Sound s₁ reserved := by
  obtain ⟨halike, hsound, -⟩ := makeRoom_ok h hmake
  refine ⟨?_, halike, hsound⟩
  rw [evict, hlocate]
  simp only [hcell, hmake, halike.view, haccept]

/-- A removal that the check agrees to empties the row. -/
theorem evict_accepted {a : α} (haccept : accept (s.view chunk row) = .ok a) :
    ∃ given s', s.evict partition id accept =
        (.ok ⟨a, cell.item, cell.values, s.format.slotId chunk given⟩, s') ∧
      Emptied s s' reserved partition chunk row given := by
  obtain ⟨halike, hsound, p, hp, hroom⟩ := makeRoom_ok h hmake
  -- What holds after room was made held before as well.
  have hc : chunk ∈ s₁.chain partition := by
    rw [halike.chain]
    exact (h.locate_eq_some_iff.mp hlocate).2.1
  have hcell₁ : s₁.cell? chunk row = some cell := by rw [halike.cell?, hcell]
  obtain ⟨given, s₂, hrow, hemptied⟩ := evictRow_emptied hsound hp hroom hc hcell₁
  refine ⟨given, s₂, ?_, hemptied.of_alike halike⟩
  rw [evict, hlocate]
  simp only [hcell, hmake, halike.view, haccept, hrow, halike.format]

end

/-- How a removal ends: no item is at the id, the memory refuses room on the free stack, or the
check decides. -/
inductive Evicts (s : RowStore T V) (reserved : List SlotId) (partition : Nat) (id : SlotId)
    (accept : RowView V → Except StoreError α) :
    Except StoreError (Evicted α V) → RowStore T V → Prop where
  | absent (habsent : ∀ chunk row, s.locate partition id = some (chunk, row) →
      s.cell? chunk row = none) : Evicts s reserved partition id accept (.error .entityNotFound) s
  | crowded {e : StoreError} {chunk row : Nat} {cell : Cell V}
      (hlocate : s.locate partition id = some (chunk, row))
      (hcell : s.cell? chunk row = some cell) (hlacks : s.LacksRoom partition e) :
      Evicts s reserved partition id accept (.error e) s
  | refused {e : StoreError} {chunk row : Nat} {cell : Cell V} {s' : RowStore T V}
      (hlocate : s.locate partition id = some (chunk, row))
      (hcell : s.cell? chunk row = some cell) (haccept : accept (s.view chunk row) = .error e)
      (halike : Alike s s') (hsound : Sound s' reserved) :
      Evicts s reserved partition id accept (.error e) s'
  | emptied {evicted : Evicted α V} {chunk row given : Nat} {cell : Cell V} {s' : RowStore T V}
      (hlocate : s.locate partition id = some (chunk, row))
      (hcell : s.cell? chunk row = some cell)
      (haccept : accept (s.view chunk row) = .ok evicted.answer)
      (hitem : evicted.item = cell.item) (hvalues : evicted.values = cell.values)
      (hid : evicted.id = s.format.slotId chunk given)
      (hemptied : Emptied s s' reserved partition chunk row given) :
      Evicts s reserved partition id accept (.ok evicted) s'

theorem evict_evicts (h : Sound s reserved) (partition : Nat) (id : SlotId)
    (accept : RowView V → Except StoreError α) :
    Evicts s reserved partition id accept (s.evict partition id accept).1
      (s.evict partition id accept).2 := by
  rcases absent_or_present s partition id with habsent | ⟨chunk, row, cell, hlocate, hcell⟩
  · rw [evict_absent habsent]
    exact .absent habsent
  · rcases makeRoom_of_locate hlocate with ⟨s₁, hmake⟩ | ⟨e, hlacks⟩
    · cases haccept : accept (s.view chunk row) with
      | error e =>
        obtain ⟨heq, halike, hsound⟩ := evict_refused h hlocate hcell hmake haccept
        rw [heq]
        exact .refused hlocate hcell haccept halike hsound
      | ok a =>
        obtain ⟨given, s', heq, hemptied⟩ := evict_accepted h hlocate hcell hmake haccept
        rw [heq]
        exact .emptied hlocate hcell haccept rfl rfl rfl hemptied
    · rw [evict_of_lacksRoom hlocate hcell hlacks]
      exact .crowded hlocate hcell hlacks

/-- A removal that is refused can be seen by nobody. It is refused because no item is at
the id, because the memory refuses room on the free stack, or because the check says so. -/
theorem evict_error (h : Sound s reserved) {e : StoreError}
    (hevict : s.evict partition id accept = (.error e, s')) :
    Alike s s' ∧ Sound s' reserved ∧
      (e = .entityNotFound ∧ (∀ chunk row, s.locate partition id = some (chunk, row) →
          s.cell? chunk row = none) ∨
        s.LacksRoom partition e ∧ s' = s ∨
        ∃ chunk row, s.locate partition id = some (chunk, row) ∧
          accept (s.view chunk row) = .error e) := by
  have hends := evict_evicts h partition id accept
  rw [hevict] at hends
  cases hends with
  | absent habsent => exact ⟨.refl _, h, .inl ⟨rfl, habsent⟩⟩
  | crowded _ _ hlacks => exact ⟨.refl _, h, .inr (.inl ⟨hlacks, rfl⟩)⟩
  | refused hlocate _ haccept halike hsound =>
    exact ⟨halike, hsound, .inr (.inr ⟨_, _, hlocate, haccept⟩)⟩

/-- A removal that succeeds hands out the item of the row with its values, and gives up one
slot of its chunk. -/
theorem evict_emptied (h : Sound s reserved) {evicted : Evicted α V}
    (hevict : s.evict partition id accept = (.ok evicted, s')) :
    ∃ chunk row given cell, s.locate partition id = some (chunk, row) ∧
      s.cell? chunk row = some cell ∧ accept (s.view chunk row) = .ok evicted.answer ∧
      evicted.item = cell.item ∧ evicted.values = cell.values ∧
      evicted.id = s.format.slotId chunk given ∧
      Emptied s s' reserved partition chunk row given := by
  have hends := evict_evicts h partition id accept
  rw [hevict] at hends
  cases hends with
  | emptied hlocate hcell haccept hitem hvalues hid hemptied =>
    exact ⟨_, _, _, _, hlocate, hcell, haccept, hitem, hvalues, hid, hemptied⟩

theorem evict_ok (h : Sound s reserved) {evicted : Evicted α V}
    (hevict : s.evict partition id accept = (.ok evicted, s')) :
    ∃ chunk row given cell, s.locate partition id = some (chunk, row) ∧
      s.cell? chunk row = some cell ∧ accept (s.view chunk row) = .ok evicted.answer ∧
      evicted.item = cell.item ∧ evicted.values = cell.values ∧
      evicted.id = s.format.slotId chunk given ∧ Sound s' reserved ∧
      Vacated s s' chunk row given ∧ (Dense s → Dense s') := by
  obtain ⟨chunk, row, given, cell, hlocate, hcell, haccept, hitem, hvalues, hid, hemptied⟩ :=
    evict_emptied h hevict
  exact ⟨chunk, row, given, cell, hlocate, hcell, haccept, hitem, hvalues, hid, hemptied.sound,
    hemptied.vacated, hemptied.dense⟩

end evict

end ArchetypeStore.RowStore

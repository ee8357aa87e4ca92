import ArchetypeStore.Proofs.RowStore.Alike
import ArchetypeStore.Proofs.RowStore.Reuse

/-! # The free stack of a partition

  The ids of all chunks of a partition share one stack. Between them the ids of an old
  chunk keep an order of their own: those at or above its fill index lie with the last row
  of the chunk at the bottom and the fill index on top. They are pushed as the fill index
  falls and popped as it rises. All other ids on the stack are holes, that is empty rows
  below the fill index of their chunk. A hole stays one until its id is issued.
-/

namespace ArchetypeStore

namespace RowStore

variable {T V : Type} {s s' : RowStore T V} {reserved : List SlotId} {partition : Nat}

/-! ### The order of an old chunk -/

/-- The rows of a chunk that lie on the free stack at or above its fill index, from the bottom
of the stack to its top. -/
def tailRows (s : RowStore T V) (partition chunk : Nat) : List Nat :=
  (rowsAmong s.format chunk (s.freeList partition).reverse).filter fun row =>
    decide (s.fill chunk ≤ row)

theorem rowsAmong_reverse (format : IdFormat) (chunk : Nat) (ids : List SlotId) :
    rowsAmong format chunk ids.reverse = (rowsAmong format chunk ids).reverse := by
  rw [rowsAmong, List.filter_reverse, List.map_reverse, rowsAmong]

/-- In an old chunk they descend from the last row to the fill index. -/
theorem Sound.tailRows_eq (h : Sound s reserved) {chunk : Nat}
    (hc : chunk ∈ s.chain partition) (hold : s.current? partition ≠ some chunk) :
    s.tailRows partition chunk =
      (List.range (s.format.rowsPerChunk - s.fill chunk)).map fun i =>
        s.format.rowsPerChunk - 1 - i := by
  have hstacked := h.stacked partition chunk hc hold
  rw [freeRows] at hstacked
  rw [tailRows, rowsAmong_reverse, List.filter_reverse, hstacked, List.reverse_range']
  apply List.map_congr_left
  intro i hi
  rw [List.mem_range] at hi
  have := h.fill_le chunk
  omega

/-! ### What an issue takes off the stack -/

theorem freeList_claimNext (s : RowStore T V) (partition q : Nat) :
    (s.claimNext partition).2.freeList q = s.freeList q := by
  rw [claimNext_eq]
  split
  · rfl
  · split <;> rfl

/-- With an empty stack nothing is popped. -/
theorem freeList_issueSpare_of_nil (hfree : s.freeList partition = []) (q : Nat) :
    (s.issueSpare partition).2.freeList q = s.freeList q := by
  cases hp : s.partitions[partition]? with
  | none => rw [issueSpare, hp]
  | some p =>
    rw [issueSpare_of_no_free hp (by rw [← freeList_eq hp, hfree])]
    exact freeList_claimNext s partition q

section growth

variable [ComponentType T]

theorem freeList_issue_of_nil (hfree : s.freeList partition = []) (q : Nat) :
    (s.issue partition).2.freeList q = s.freeList q := by
  have hfirst := freeList_issueSpare_of_nil hfree
  unfold issue
  split
  · rename_i hspare
    rw [hspare] at hfirst
    exact hfirst q
  · rename_i s₁ hspare
    rw [hspare] at hfirst
    split
    · rename_i hextend
      rw [extend_refused hextend]
      exact hfirst q
    · rename_i s₂ hextend
      obtain ⟨-, -, -, hlists, -⟩ := extend_adds hextend
      have hagain := freeList_issueSpare_of_nil (by rw [hlists, hfirst, hfree]) q
      split <;>
        rename_i hspare' <;>
        rw [hspare'] at hagain <;>
        rw [hagain, hlists, hfirst]

/-- An issue pops the id on top of the free stack. -/
theorem issue_popped (h : Sound s reserved) {id : SlotId} {rest : List SlotId}
    (hfree : s.freeList partition = id :: rest) :
    ∃ s', s.issue partition = (.ok id, s') ∧ Popped s s' partition id rest := by
  obtain ⟨s', hspare, -, hpopped⟩ := issueSpare_popped h hfree
  exact ⟨s', issue_of_spare hspare, hpopped⟩

/-- Where an id is issued an insertion succeeds, and it leaves the stacks and the fill indices
as the issue does. -/
theorem insert_issued (h : Sound s reserved) {id : SlotId}
    (hissue : s.issue partition = (.ok id, s')) (item : Nat) (values : List V) :
    ∃ s₁, s.insert partition item values = (.ok id, s₁) ∧ SameChains s' s₁ ∧
      s₁.partitions = s'.partitions ∧ ∀ c, s₁.fill c = s'.fill c := by
  obtain ⟨chunk, row, rfl, hissued, hsound⟩ := issue_ok h hissue
  obtain ⟨s₁, hoccupy, hsame, hpartitions, -, hfill⟩ :=
    occupy_vacant hsound.toChained hissued.mem_chain hissued.lt_fill
      (by rw [hissued.cell, hissued.empty]) item values
  rw [hissued.steady.format] at hoccupy
  exact ⟨s₁, by rw [insert_eq_occupy h hissue, hoccupy], hsame, hpartitions, hfill⟩

/-- So does an insertion. -/
theorem insert_popped (h : Sound s reserved) {id : SlotId} {rest : List SlotId}
    (hfree : s.freeList partition = id :: rest) (item : Nat) (values : List V) :
    ∃ s', s.insert partition item values = (.ok id, s') ∧ Popped s s' partition id rest := by
  obtain ⟨s₁, hissue, hpopped⟩ := issue_popped h hfree
  obtain ⟨s', hinsert, hsame, hpartitions, hfill⟩ := insert_issued h hissue item values
  refine ⟨s', hinsert, hpopped.toSameChains.trans hsame, fun q => ?_, hpopped.row_le,
    fun c => ?_⟩
  · rw [← hpopped.free, freeList, freeList, hpartitions]
  · rw [hfill, hpopped.fill]

end growth

/-! ### Room -/

/-- What is seen after room for one more id was made on the free stack of a partition. -/
structure Roomy (s s' : RowStore T V) (partition : Nat) : Prop extends Alike s s' where
  /-- All ids lie on the stack in the order they had, and the next push is accepted. -/
  push : ∃ p p', s.partitions[partition]? = some p ∧ s'.partitions[partition]? = some p' ∧
    p'.freeIds.toList = p.freeIds.toList ∧
      ∀ id, id ≠ UInt32.ofNat SlotId.detachedBit →
        (p'.freeIds.push id).1 = true ∧ (p'.freeIds.push id).2.toList = id :: p.freeIds.toList

theorem makeRoom_roomy (h : Sound s reserved) {p : Partition T}
    (hp : s.partitions[partition]? = some p) (hmake : s.makeRoom partition = (.ok (), s')) :
    Roomy s s' partition := by
  obtain ⟨halike, -, p', hp', hroom⟩ := makeRoom_ok h hmake
  have hlist : p'.freeIds.toList = p.freeIds.toList := by
    rw [← freeList_eq hp', ← freeList_eq hp, halike.free]
  refine ⟨halike, p, p', hp, hp', hlist, fun id hid => ?_⟩
  refine ⟨?_, by rw [BoundedStack.push_toList hid hroom, hlist]⟩
  rw [BoundedStack.push, if_neg hid, if_pos hroom]

/-- An eviction finds room for the id that goes on the stack: nothing is lost. -/
theorem evict_pushes (h : Sound s reserved) {α : Type} {id : SlotId}
    {accept : RowView V → Except StoreError α} {evicted : Evicted α V}
    (hevict : s.evict partition id accept = (.ok evicted, s')) :
    ∃ chunk row, s.locate partition id = some (chunk, row) ∧
      ∀ q, s'.freeList q =
        if q = partition ∧ (s.LeavesHole chunk row ∨ s.current? partition ≠ some chunk) then
          evicted.id :: s.freeList q
        else s.freeList q := by
  obtain ⟨chunk, row, given, cell, hlocate, -, -, -, -, hid, hemptied⟩ := evict_emptied h hevict
  refine ⟨chunk, row, hlocate, fun q => ?_⟩
  rw [hid]
  exact hemptied.gaveUp.free q

/-! ### Holes -/

/-- A hole stays one where its id stays on the stack and the fill index does not fall. -/
theorem Hole.mono {id : SlotId} (hhole : s.Hole partition id)
    (hformat : s'.format = s.format) (hfree : id ∈ s'.freeList partition)
    (hfill : s.fill (s.format.chunkOf id) ≤ s'.fill (s.format.chunkOf id)) :
    s'.Hole partition id := by
  refine ⟨hfree, ?_⟩
  rw [hformat]
  exact Nat.lt_of_lt_of_le hhole.2 hfill

/-- So it is where nothing was claimed and the partitions are the same. -/
theorem Hole.of_partitions {id : SlotId} (hhole : s.Hole partition id)
    (hformat : s'.format = s.format) (hpartitions : s'.partitions = s.partitions)
    (hfill : ∀ c, s'.fill c = s.fill c) : s'.Hole partition id := by
  refine hhole.mono hformat ?_ (Nat.le_of_eq (hfill _).symm)
  rw [freeList, hpartitions]
  exact hhole.1

/-- The row that an eviction gives up is no hole: either it held an item or it stays below the
fill index. -/
theorem Hole.vacated (h : Sound s reserved) {id : SlotId} {q chunk row given : Nat}
    {cell : Cell V} (hhole : s.Hole q id) (hcell : s.cell? chunk row = some cell)
    (hemptied : Emptied s s' reserved partition chunk row given) : s'.Hole q id := by
  have hgave := hemptied.gaveUp
  refine ⟨?_, ?_⟩
  · rw [hgave.free]
    split
    · exact List.mem_cons_of_mem _ hhole.1
    · exact hhole.1
  · have hlt := hhole.2
    rw [hemptied.vacated.same.format, hgave.fill]
    split
    · rename_i hgiven
      obtain ⟨heq, hkeeps⟩ := hgiven
      -- The fill index falls by one row, and that row held an item.
      have hne : s.format.rowOf id ≠ s.fill chunk - 1 := by
        intro hlast
        have hempty := (h.row_of_free hhole.1).1
        rw [heq, hlast] at hempty
        refine hkeeps ⟨fun hrow => ?_, hempty⟩
        rw [hrow, hempty] at hcell
        cases hcell
      rw [heq] at hlt
      omega
    · exact hlt

theorem Hole.evict (h : Sound s reserved) {id : SlotId} {q : Nat} (hhole : s.Hole q id)
    {α : Type} (partition : Nat) (id' : SlotId) (accept : RowView V → Except StoreError α) :
    (s.evict partition id' accept).2.Hole q id := by
  cases hevict : s.evict partition id' accept with
  | mk answer s' =>
    cases answer with
    | error e =>
      obtain ⟨halike, -, -⟩ := evict_error h hevict
      exact hhole.mono halike.format (halike.free q ▸ hhole.1) (Nat.le_of_eq (halike.fill _).symm)
    | ok evicted =>
      obtain ⟨chunk, row, given, cell, -, hcell, -, -, -, -, hemptied⟩ := evict_emptied h hevict
      exact hhole.vacated h hcell hemptied

/-- A row that is rewritten stays claimed. -/
theorem rewrite_claims (s : RowStore T V) (partition : Nat) (id : SlotId)
    (f : List V → List V) :
    (s.rewrite partition id f).2.partitions = s.partitions ∧
      ∀ c, (s.rewrite partition id f).2.fill c = s.fill c := by
  unfold rewrite
  split
  · exact ⟨rfl, fun _ => rfl⟩
  · rename_i v hrow
    split
    · exact ⟨rfl, fun _ => rfl⟩
    · rename_i cell hcell
      have hold : s.cell? v.chunk v.row = some cell := (of_row hrow).2.trans hcell
      exact ⟨rfl, fill_setCell s (lt_fill_of_cell? hold) _⟩

theorem Hole.rewrite {id : SlotId} {q : Nat} (hhole : s.Hole q id) (partition : Nat)
    (id' : SlotId) (f : List V → List V) : (s.rewrite partition id' f).2.Hole q id := by
  obtain ⟨hpartitions, hfill⟩ := rewrite_claims s partition id' f
  exact hhole.of_partitions (rewrite_quiet s partition id' f).format hpartitions hfill

section growth

variable [ComponentType T]

theorem Hole.newPartition {id : SlotId} {q : Nat} (hhole : s.Hole q id) (layout : List T) :
    (s.newPartition layout).2.Hole q id := by
  cases hnew : s.newPartition layout with
  | mk answer s' =>
    cases answer with
    | error e =>
      obtain ⟨rfl, -⟩ := newPartition_error hnew
      exact hhole
    | ok partition =>
      obtain ⟨hsize, -, hadds, -⟩ := newPartition_ok hnew
      refine hhole.mono hadds.format ?_ (Nat.le_of_eq (hadds.fill _).symm)
      rw [freeList, getElem?_newPartition hnew, if_neg]
      · exact hhole.1
      · -- The new partition was not there before, so it had no free ids.
        rintro rfl
        have hmem := hhole.1
        rw [freeList, hsize, Array.getElem?_eq_none (Nat.le_refl _)] at hmem
        cases hmem

/-- An issue answers with the id of the hole, or leaves the hole. -/
theorem Hole.issue (h : Sound s reserved) {id : SlotId} {q : Nat} (hhole : s.Hole q id)
    {id' : SlotId} (hissue : s.issue partition = (.ok id', s')) : id' = id ∨ s'.Hole q id := by
  cases hfree : s.freeList partition with
  | nil =>
    obtain ⟨chunk, row, -, hissued, -⟩ := issue_ok h hissue
    have hlists := freeList_issue_of_nil hfree q
    rw [hissue] at hlists
    refine .inr (hhole.mono hissued.steady.format (hlists ▸ hhole.1) ?_)
    rw [hissued.fill]
    split
    · rename_i heq
      rw [heq]
      exact Nat.le_max_left ..
    · exact Nat.le_refl _
  | cons top rest =>
    obtain ⟨s₁, hpop, hpopped⟩ := issue_popped h hfree
    rw [hissue] at hpop
    cases hpop
    by_cases hid : id' = id
    · exact .inl hid
    · refine .inr (hhole.mono hpopped.format ?_ ?_)
      · have hmem := hhole.1
        rw [hpopped.free]
        split
        · rename_i heq
          rw [heq, hfree] at hmem
          exact (List.mem_cons.mp hmem).resolve_left fun heq => hid heq.symm
        · exact hmem
      · rw [hpopped.fill]
        split <;> omega

theorem Hole.insert (h : Sound s reserved) {id : SlotId} {q : Nat} (hhole : s.Hole q id)
    (partition item : Nat) (values : List V) :
    (s.insert partition item values).1 = .ok id ∨
      (s.insert partition item values).2.Hole q id := by
  cases hissue : s.issue partition with
  | mk answer s' =>
    cases answer with
    | error e =>
      obtain rfl := issue_stays h hissue
      simp only [RowStore.insert, hissue]
      exact .inr hhole
    | ok id' =>
      obtain ⟨s₁, hinsert, hsame, hpartitions, hfill⟩ := insert_issued h hissue item values
      rw [hinsert]
      rcases hhole.issue h hissue with rfl | hissued
      · exact .inl rfl
      · exact .inr (hissued.of_partitions hsame.format hpartitions hfill)

end growth

end RowStore

namespace Pool

variable {T V : Type} [ComponentType T]

/-! ### Along a run -/

omit [ComponentType T] in
/-- An id that is out has a row of its own, which is no hole. -/
theorem hole_occupy {pool : Pool T V} (h : pool.store.Sound pool.reserved) {id' : SlotId}
    (hid : id' ∈ pool.reserved) {q : Nat} {id : SlotId} (hhole : pool.store.Hole q id)
    (partition item : Nat) (values : List V) :
    (pool.store.occupy partition id' item values).2.Hole q id := by
  rcases occupy_cases h hid partition item values with herror |
    ⟨chunk, row, store, rfl, hc, hr, -, -, -⟩
  · rw [herror]
    exact hhole
  · obtain ⟨store', hoccupy, hsame, hpartitions, -, hfill⟩ :=
      RowStore.occupy_vacant h.toChained hc hr (h.cell?_of_reserved hc hid) item values
    rw [hoccupy]
    exact hhole.of_partitions hsame.format hpartitions hfill

/-- A hole stays one through a call that does not issue its id. -/
theorem hole_next {pool : Pool T V} (h : pool.store.Sound pool.reserved)
    {call : RowStore.Call T V} (hallows : pool.Allows call) {q : Nat} {id : SlotId}
    (hhole : pool.store.Hole q id) :
    (pool.store.perform call).1 = .ok (.id id) ∨ (pool.next call).store.Hole q id := by
  cases call with
  | newPartition layout => exact .inr (hhole.newPartition layout)
  | newItem => exact .inr hhole
  | setId item word => exact .inr hhole
  | issue partition =>
    show (pool.store.issue partition).1.map _ = _ ∨ (pool.store.issue partition).2.Hole q id
    cases hissue : pool.store.issue partition with
    | mk answer store =>
      cases answer with
      | error e =>
        obtain rfl := RowStore.issue_stays h hissue
        exact .inr hhole
      | ok id' =>
        refine (hhole.issue h hissue).imp_left fun heq => ?_
        rw [heq]
        rfl
  | occupy partition id' item values =>
    exact .inr (hole_occupy h hallows hhole partition item values)
  | insert partition item values =>
    refine (hhole.insert h partition item values).imp_left fun hanswer => ?_
    show (pool.store.insert partition item values).1.map _ = _
    rw [hanswer]
    rfl
  | evict partition id' accept => exact .inr (hhole.evict h partition id' accept)
  | row partition id' => exact .inr hhole
  | rewrite partition id' f => exact .inr (hhole.rewrite partition id' f)
  | memory m => exact .inr hhole

/-- A hole stays one until its id is issued. -/
theorem Orderly.hole_stays {pool : Pool T V} (h : pool.store.Sound pool.reserved)
    {calls : List (RowStore.Call T V)} (horderly : pool.Orderly calls) {q : Nat} {id : SlotId}
    (hhole : pool.store.Hole q id) :
    .ok (.id id) ∈ pool.store.answers calls ∨ (pool.after calls).store.Hole q id := by
  induction calls generalizing pool with
  | nil => exact .inr hhole
  | cons call rest ih =>
    rw [RowStore.answers, List.mem_cons]
    rcases hole_next h horderly.1 hhole with hissued | hstays
    · exact .inl (.inl hissued.symm)
    · exact (ih (next_kept h horderly.1).sound horderly.2 hstays).imp_left .inr

/-- How free ids lie on the stacks, and what pushing and popping them does. -/
structure StackDiscipline (pool : Pool T V) : Prop where
  /-- From the bottom of the stack to its top, the rows of an old chunk at or above its fill
  index descend from the last row of the chunk to the fill index. -/
  tails : ∀ partition, ∀ chunk ∈ pool.store.chain partition,
    pool.store.current? partition ≠ some chunk →
      pool.store.tailRows partition chunk =
        (List.range (pool.store.format.rowsPerChunk - pool.store.fill chunk)).map fun i =>
          pool.store.format.rowsPerChunk - 1 - i
  /-- All ids of the current chunk are holes. -/
  current : ∀ partition, ∀ id ∈ pool.store.freeList partition,
    pool.store.current? partition = some (pool.store.format.chunkOf id) →
      pool.store.Hole partition id
  /-- Holes are empty rows that nobody waits for. -/
  vacant : ∀ partition id, pool.store.Hole partition id →
    pool.store.format.chunkOf id ∈ pool.store.chain partition ∧
      pool.store.cell? (pool.store.format.chunkOf id) (pool.store.format.rowOf id) = none ∧
        id ∉ pool.reserved
  /-- A hole stays one until its id is issued. -/
  stays : ∀ calls, pool.Orderly calls → ∀ partition id, pool.store.Hole partition id →
    .ok (.id id) ∈ pool.store.answers calls ∨ (pool.after calls).store.Hole partition id
  /-- An issue pops the stack. A row behind the fill index raises the index by one, and a hole
  leaves it. -/
  issue : ∀ partition id rest, pool.store.freeList partition = id :: rest →
    ∃ store, pool.store.issue partition = (.ok id, store) ∧
      pool.store.Popped store partition id rest
  insert : ∀ partition id rest, pool.store.freeList partition = id :: rest →
    ∀ item values, ∃ store, pool.store.insert partition item values = (.ok id, store) ∧
      pool.store.Popped store partition id rest
  /-- Room on a stack leaves the ids and their order. -/
  room : ∀ partition p, pool.store.partitions[partition]? = some p →
    p.freeIds.size ≤ p.freeIds.capacity ∧
      ∀ store, pool.store.makeRoom partition = (.ok (), store) →
        pool.store.Roomy store partition
  /-- It is found unless the memory refuses it, and then nothing changes. -/
  crowded : ∀ partition p, pool.store.partitions[partition]? = some p →
    (∃ store, pool.store.makeRoom partition = (.ok (), store)) ∨
      ∃ bytes, pool.store.LacksRoom partition (.allocationFailed bytes) ∧
        pool.store.makeRoom partition = (.error (.allocationFailed bytes), pool.store)
  /-- A memory that serves free ids does not refuse it. -/
  found : pool.store.memory.Serves .freeIds → ∀ partition, pool.store.FindsRoom partition
  /-- An eviction that is refused pushes nothing. -/
  refused : ∀ {α : Type} partition id (accept : RowView V → Except StoreError α) e store,
    pool.store.evict partition id accept = (.error e, store) →
      ∀ q, store.freeList q = pool.store.freeList q
  /-- One that goes through finds room first, so it loses no id. -/
  evict : ∀ {α : Type} partition id (accept : RowView V → Except StoreError α) evicted store,
    pool.store.evict partition id accept = (.ok evicted, store) →
      ∃ chunk row, pool.store.locate partition id = some (chunk, row) ∧
        ∀ q, store.freeList q =
          if q = partition ∧ (pool.store.LeavesHole chunk row ∨
              pool.store.current? partition ≠ some chunk) then
            evicted.id :: pool.store.freeList q
          else pool.store.freeList q

/-- Whatever orderly calls came before, the free stacks are in order. -/
theorem Orderly.stack_discipline {rowBits : Nat} {limit : Option Nat} {format : IdFormat}
    (hformat : IdFormat.create rowBits limit = .ok format) {calls : List (RowStore.Call T V)}
    (horderly : (Pool.empty format).Orderly calls) :
    ((Pool.empty format).after calls).StackDiscipline := by
  have h := horderly.sound_of_empty hformat
  constructor
  case tails =>
    intro partition chunk hc hold
    exact h.tailRows_eq hc hold
  case current =>
    intro partition id hid hcurrent
    exact ⟨hid, (h.row_of_free hid).2.2 hcurrent⟩
  case vacant =>
    intro partition id hhole
    obtain ⟨hempty, hout, -⟩ := h.row_of_free hhole.1
    exact ⟨(h.place_of_free hhole.1).1, hempty, hout⟩
  case stays =>
    intro later hlater partition id hhole
    exact hlater.hole_stays h hhole
  case issue =>
    intro partition id rest hfree
    exact RowStore.issue_popped h hfree
  case insert =>
    intro partition id rest hfree item values
    exact RowStore.insert_popped h hfree item values
  case room =>
    intro partition p hp
    exact ⟨h.room partition p hp, fun store hmake => RowStore.makeRoom_roomy h hp hmake⟩
  case crowded =>
    intro partition p hp
    refine (RowStore.makeRoom_cases hp).imp_right fun ⟨e, hlacks⟩ => ?_
    obtain ⟨bytes, rfl⟩ := hlacks.failed h
    exact ⟨bytes, hlacks, RowStore.makeRoom_of_lacksRoom hlacks⟩
  case found =>
    intro hserves partition
    exact h.findsRoom hserves
  case refused =>
    intro α partition id accept e store hevict
    exact (RowStore.evict_error h hevict).1.free
  case evict =>
    intro α partition id accept evicted store hevict
    exact RowStore.evict_pushes h hevict

/-- Nine items in chunks of four rows. Item 0 is removed while id 3 is out, and then the last
items of the two old chunks are removed in turn. -/
def mixing : List (RowStore.Call Sample Nat) :=
  [.newPartition [], .insert 0 0 [], .insert 0 1 [], .insert 0 2 [], .insert 0 3 [],
    .insert 0 4 [], .insert 0 5 [], .insert 0 6 [], .insert 0 7 [], .insert 0 8 [],
    .evict 0 3 fun _ => .ok (), .issue 0, .evict 0 0 fun _ => .ok (), .occupy 0 3 3 [],
    .evict 0 7 fun _ => .ok (), .evict 0 3 fun _ => .ok (), .evict 0 6 fun _ => .ok (),
    .evict 0 2 fun _ => .ok ()]

/-- Id 0 is a hole, and the other ids of the two chunks lie among each other. -/
theorem stack_discipline_mixing :
    IdFormat.create 2 none = .ok ⟨2, 1 <<< 28⟩ ∧
      (Pool.empty ⟨2, 1 <<< 28⟩ : Pool Sample Nat).Orderly mixing ∧
      ((Pool.empty ⟨2, 1 <<< 28⟩).after mixing).store.freeList 0 = [2, 6, 3, 7, 0] ∧
      ((Pool.empty ⟨2, 1 <<< 28⟩).after mixing).store.tailRows 0 0 = [3, 2] ∧
      ((Pool.empty ⟨2, 1 <<< 28⟩).after mixing).store.tailRows 0 1 = [3, 2] ∧
      ((Pool.empty ⟨2, 1 <<< 28⟩).after mixing).StackDiscipline := by
  have hformat : IdFormat.create 2 none = .ok ⟨2, 1 <<< 28⟩ := rfl
  have horderly : (Pool.empty ⟨2, 1 <<< 28⟩ : Pool Sample Nat).Orderly mixing := by
    simp only [mixing, Orderly, Allows, true_and, and_true]
    decide +kernel
  exact ⟨hformat, horderly, by decide +kernel, by decide +kernel, by decide +kernel,
    Orderly.stack_discipline hformat horderly⟩

end Pool

end ArchetypeStore

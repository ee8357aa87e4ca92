import ArchetypeStore.Proofs.RowStore.Removal
import ArchetypeStore.Proofs.Sample

/-! # Slots are conserved

  Partitions of one store issue, register, insert and remove in any order. Whatever they
  do, each slot of each partition is in exactly one of four classes: its row holds an item,
  its id is out and waits to be registered, its id lies on the free stack, or its row is at
  or above the fill index of the current chunk. An id that is out stays out, with an empty
  row, until it is registered.
-/

namespace ArchetypeStore

/-- A row store with the ids that were issued and have no item yet. -/
structure Pool (T V : Type) where
  /-- The rows. -/
  store : RowStore T V
  /-- Ids that are out, the one issued last first. -/
  reserved : List SlotId

namespace Pool

variable {T V : Type}

/-! ### Classes of slots -/

/-- What a slot of a partition may be. -/
inductive SlotClass where
  /-- The row holds an item. -/
  | published
  /-- The id was issued and is not registered yet. -/
  | reserved
  /-- The id is on the free stack. -/
  | free
  /-- The row is at or above the fill index of the current chunk. -/
  | unclaimed
  deriving DecidableEq

/-- The slot of a row is in the class. -/
def InClass (pool : Pool T V) (partition chunk row : Nat) : SlotClass → Prop
  | .published => ∃ cell, pool.store.cell? chunk row = some cell
  | .reserved => pool.store.format.slotId chunk row ∈ pool.reserved
  | .free => pool.store.format.slotId chunk row ∈ pool.store.freeList partition
  | .unclaimed => pool.store.current? partition = some chunk ∧ pool.store.fill chunk ≤ row

/-- How often a slot is accounted for in one class. -/
def shareOf (pool : Pool T V) (partition chunk row : Nat) : SlotClass → Nat
  | .published => if (pool.store.cell? chunk row).isSome then 1 else 0
  | .reserved => pool.reserved.count (pool.store.format.slotId chunk row)
  | .free => (pool.store.freeList partition).count (pool.store.format.slotId chunk row)
  | .unclaimed =>
    if pool.store.current? partition = some chunk ∧ pool.store.fill chunk ≤ row then 1 else 0

theorem shareOf_pos_iff (pool : Pool T V) (partition chunk row : Nat) (k : SlotClass) :
    0 < pool.shareOf partition chunk row k ↔ pool.InClass partition chunk row k := by
  cases k with
  | published =>
    simp only [shareOf, InClass, ← Option.isSome_iff_exists]
    split <;> simp [*]
  | reserved => exact List.count_pos_iff
  | free => exact List.count_pos_iff
  | unclaimed =>
    simp only [shareOf, InClass]
    split <;> simp [*]

instance (pool : Pool T V) (partition chunk row : Nat) (k : SlotClass) :
    Decidable (pool.InClass partition chunk row k) :=
  decidable_of_iff _ (pool.shareOf_pos_iff partition chunk row k)

theorem shares_eq (pool : Pool T V) (partition chunk row : Nat) :
    pool.store.shares pool.reserved partition chunk row =
      pool.shareOf partition chunk row .published + pool.shareOf partition chunk row .reserved +
        pool.shareOf partition chunk row .free +
          pool.shareOf partition chunk row .unclaimed := rfl

/-- A slot that is accounted for once is in one class. -/
theorem exists_class {pool : Pool T V} {partition chunk row : Nat}
    (h : pool.store.shares pool.reserved partition chunk row = 1) :
    ∃ k, pool.InClass partition chunk row k ∧
      (∀ k', pool.InClass partition chunk row k' → k' = k) ∧
        pool.shareOf partition chunk row k = 1 := by
  rw [shares_eq] at h
  have hpos := shareOf_pos_iff pool partition chunk row
  have hclass : ∃ k, 0 < pool.shareOf partition chunk row k ∧
      ∀ k', 0 < pool.shareOf partition chunk row k' → k' = k := by
    -- The first class with a share takes all of it.
    rcases Nat.eq_zero_or_pos (pool.shareOf partition chunk row .published) with hp | hp
    · rcases Nat.eq_zero_or_pos (pool.shareOf partition chunk row .reserved) with hr | hr
      · rcases Nat.eq_zero_or_pos (pool.shareOf partition chunk row .free) with hf | hf
        · exact ⟨.unclaimed, by omega, fun k' hk' => by cases k' <;> first | rfl | omega⟩
        · exact ⟨.free, hf, fun k' hk' => by cases k' <;> first | rfl | omega⟩
      · exact ⟨.reserved, hr, fun k' hk' => by cases k' <;> first | rfl | omega⟩
    · exact ⟨.published, hp, fun k' hk' => by cases k' <;> first | rfl | omega⟩
  obtain ⟨k, hk, honly⟩ := hclass
  refine ⟨k, (hpos k).mp hk, fun k' hk' => honly k' ((hpos k').mpr hk'), ?_⟩
  cases k <;> omega

/-! ### Steps and runs -/

variable [ComponentType T]

/-- One operation of some partition, refused ones included. Ids are registered only while
they are out; everything else may be called with any argument. -/
inductive Step : Pool T V → Pool T V → Prop where
  | newPartition (pool : Pool T V) (layout : List T) :
    Step pool ⟨(pool.store.newPartition layout).2, pool.reserved⟩
  | newItem (pool : Pool T V) : Step pool ⟨pool.store.newItem.2, pool.reserved⟩
  | setId (pool : Pool T V) (item : Nat) (id : SlotId) :
    Step pool ⟨pool.store.setId item id, pool.reserved⟩
  | issued (pool : Pool T V) {partition : Nat} {id : SlotId} {store : RowStore T V}
    (h : pool.store.issue partition = (.ok id, store)) : Step pool ⟨store, id :: pool.reserved⟩
  | notIssued (pool : Pool T V) {partition : Nat} {e : StoreError} {store : RowStore T V}
    (h : pool.store.issue partition = (.error e, store)) : Step pool ⟨store, pool.reserved⟩
  | registered (pool : Pool T V) {partition : Nat} {id : SlotId} (hid : id ∈ pool.reserved)
    {item : Nat} {values : List V} {store : RowStore T V}
    (h : pool.store.occupy partition id item values = (.ok (), store)) :
    Step pool ⟨store, pool.reserved.erase id⟩
  | notRegistered (pool : Pool T V) {partition : Nat} {id : SlotId} (hid : id ∈ pool.reserved)
    {item : Nat} {values : List V} {e : StoreError} {store : RowStore T V}
    (h : pool.store.occupy partition id item values = (.error e, store)) :
    Step pool ⟨store, pool.reserved⟩
  | insert (pool : Pool T V) (partition item : Nat) (values : List V) :
    Step pool ⟨(pool.store.insert partition item values).2, pool.reserved⟩
  | evict (pool : Pool T V) {α : Type} (partition : Nat) (id : SlotId)
    (accept : RowView V → Except StoreError α) :
    Step pool ⟨(pool.store.evict partition id accept).2, pool.reserved⟩
  | release (pool : Pool T V) (partition : Nat) (id : SlotId) :
    Step pool ⟨(pool.store.release partition id).2, pool.reserved⟩
  /-- From now on memory answers in another way. -/
  | memory (pool : Pool T V) (m : Memory) : Step pool ⟨pool.store.withMemory m, pool.reserved⟩

/-- What operations make of a store without chunks. -/
inductive Reachable (format : IdFormat) : Pool T V → Prop where
  | empty : Reachable format ⟨.empty format, []⟩
  | step {pool pool' : Pool T V} : Reachable format pool → Step pool pool' →
    Reachable format pool'

/-! ### The invariant along a run -/

/-- What a step keeps: the invariant, the slots of each partition, and each id that is out
unless it is the one that is registered. -/
structure Kept (pool pool' : Pool T V) : Prop where
  sound : pool'.store.Sound pool'.reserved
  format : pool'.store.format = pool.store.format
  chain : ∀ partition, pool.store.chain partition <+: pool'.store.chain partition
  reserved : ∀ partition, ∀ chunk ∈ pool.store.chain partition, ∀ row,
    row < pool.store.format.rowsPerChunk →
      pool.store.format.slotId chunk row ∈ pool.reserved →
      pool'.store.format.slotId chunk row ∈ pool'.reserved ∨
        pool'.reserved = pool.reserved.erase (pool.store.format.slotId chunk row) ∧
          pool'.InClass partition chunk row .published

omit [ComponentType T] in
/-- Where the list of ids that are out stays, nothing is to be shown for them. -/
theorem Kept.of_steady {pool : Pool T V} {store : RowStore T V}
    (hsound : store.Sound pool.reserved) (hsteady : pool.store.Steady store) :
    Kept pool ⟨store, pool.reserved⟩ := by
  refine ⟨hsound, hsteady.format, hsteady.chain, fun q c _ r _ hr => .inl ?_⟩
  rw [hsteady.format]
  exact hr

theorem kept_newPartition {pool : Pool T V} (h : pool.store.Sound pool.reserved)
    (layout : List T) : Kept pool ⟨(pool.store.newPartition layout).2, pool.reserved⟩ := by
  cases hnew : pool.store.newPartition layout with
  | mk answer store =>
    cases answer with
    | error e =>
      obtain ⟨rfl, -⟩ := RowStore.newPartition_error hnew
      exact .of_steady h (.refl _)
    | ok partition =>
      obtain ⟨hsize, -, hadds, -⟩ := RowStore.newPartition_ok hnew
      refine ⟨RowStore.newPartition_sound hnew h, hadds.format, ?_, ?_⟩
      · intro q
        rw [RowStore.chain_newPartition hnew]
        split
        · rename_i heq
          rw [heq, RowStore.chain_of_none (by
            rw [hsize]
            exact Array.getElem?_eq_none (Nat.le_refl _))]
          exact List.nil_prefix
        · exact List.prefix_refl _
      · intro q c _ r _ hr
        rw [hadds.format]
        exact .inl hr

theorem kept_issue {pool : Pool T V} (h : pool.store.Sound pool.reserved) {partition : Nat}
    {id : SlotId} {store : RowStore T V}
    (hissue : pool.store.issue partition = (.ok id, store)) :
    Kept pool ⟨store, id :: pool.reserved⟩ := by
  obtain ⟨chunk, row, -, hissued, hsound⟩ := RowStore.issue_ok h hissue
  refine ⟨hsound, hissued.steady.format, hissued.steady.chain, fun q c _ r _ hr => .inl ?_⟩
  rw [hissued.steady.format]
  exact List.mem_cons_of_mem _ hr

theorem kept_notIssued {pool : Pool T V} (h : pool.store.Sound pool.reserved) {partition : Nat}
    {e : StoreError} {store : RowStore T V}
    (hissue : pool.store.issue partition = (.error e, store)) :
    Kept pool ⟨store, pool.reserved⟩ := by
  obtain rfl := RowStore.issue_stays h hissue
  exact .of_steady h (.refl _)

omit [ComponentType T] in
/-- An id that is out is registered, or the partition is not the one that issued it. -/
theorem occupy_cases {pool : Pool T V} (h : pool.store.Sound pool.reserved) {id : SlotId}
    (hid : id ∈ pool.reserved) (partition item : Nat) (values : List V) :
    pool.store.occupy partition id item values = (.error .entityNotFound, pool.store) ∨
      ∃ chunk row store, id = pool.store.format.slotId chunk row ∧
        chunk ∈ pool.store.chain partition ∧ row < pool.store.fill chunk ∧
        pool.store.occupy partition id item values = (.ok (), store) ∧
          store.Sound (pool.reserved.erase id) ∧
            pool.store.Stored store partition chunk row item values := by
  cases hlocate : pool.store.locate partition id with
  | none => exact .inl (RowStore.occupy_of_not_found hlocate item values)
  | some place =>
    right
    obtain ⟨chunk, row⟩ := place
    obtain ⟨hplace, hc, hr⟩ := h.locate_eq_some_iff.mp hlocate
    obtain ⟨_, c, hc', r, hr', rfl⟩ := h.of_reserved hid
    rw [h.chunkOf_slotId (h.chain_lt _ c hc') (h.lt_rowsPerChunk hr'),
      h.rowOf_slotId (h.chain_lt _ c hc') (h.lt_rowsPerChunk hr')] at hplace
    cases hplace
    obtain ⟨store, hoccupy, hsound, hstored, -⟩ :=
      RowStore.occupy_reserved h hc hr hid item values
    exact ⟨chunk, row, store, rfl, hc, hr, hoccupy, hsound, hstored⟩

omit [ComponentType T] in
theorem kept_registered {pool : Pool T V} (h : pool.store.Sound pool.reserved) {id : SlotId}
    (hid : id ∈ pool.reserved) {partition item : Nat} {values : List V} {store : RowStore T V}
    (hoccupy : pool.store.occupy partition id item values = (.ok (), store)) :
    Kept pool ⟨store, pool.reserved.erase id⟩ := by
  rcases occupy_cases h hid partition item values with herror |
    ⟨chunk, row, store', rfl, hclaimed, hfill, hok, hsound, hstored⟩
  · rw [hoccupy] at herror
    cases herror
  · rw [hoccupy] at hok
    cases hok
    refine ⟨hsound, hstored.steady.format, hstored.steady.chain, fun q c hc r hrow hr => ?_⟩
    -- Only the id that is registered leaves the list, and its row is published.
    by_cases hthis : pool.store.format.slotId c r = pool.store.format.slotId chunk row
    · right
      obtain ⟨rfl, rfl⟩ := (h.slotId_eq_iff (h.chain_lt q c hc) hrow
        (h.chain_lt partition chunk hclaimed) (h.lt_rowsPerChunk hfill)).mp hthis
      exact ⟨rfl, _, hstored.cell_self⟩
    · left
      rw [hstored.steady.format]
      exact (List.mem_erase_of_ne hthis).mpr hr

omit [ComponentType T] in
theorem kept_notRegistered {pool : Pool T V} (h : pool.store.Sound pool.reserved) {id : SlotId}
    (hid : id ∈ pool.reserved) {partition item : Nat} {values : List V} {e : StoreError}
    {store : RowStore T V}
    (hoccupy : pool.store.occupy partition id item values = (.error e, store)) :
    Kept pool ⟨store, pool.reserved⟩ := by
  rcases occupy_cases h hid partition item values with herror |
    ⟨chunk, row, store', -, -, -, hok, -⟩
  · rw [hoccupy] at herror
    cases herror
    exact .of_steady h (.refl _)
  · rw [hoccupy] at hok
    cases hok

theorem kept_insert {pool : Pool T V} (h : pool.store.Sound pool.reserved)
    (partition item : Nat) (values : List V) :
    Kept pool ⟨(pool.store.insert partition item values).2, pool.reserved⟩ := by
  cases hinsert : pool.store.insert partition item values with
  | mk answer store =>
    cases answer with
    | ok id =>
      obtain ⟨_, _, -, -, hsound, hstored, -⟩ := RowStore.insert_ok h hinsert
      exact .of_steady hsound hstored.steady
    | error e =>
      obtain rfl := RowStore.insert_stays h hinsert
      exact .of_steady h (.refl _)

omit [ComponentType T] in
theorem kept_evict {pool : Pool T V} (h : pool.store.Sound pool.reserved) {α : Type}
    (partition : Nat) (id : SlotId) (accept : RowView V → Except StoreError α) :
    Kept pool ⟨(pool.store.evict partition id accept).2, pool.reserved⟩ := by
  cases hevict : pool.store.evict partition id accept with
  | mk answer store =>
    cases answer with
    | ok evicted =>
      obtain ⟨_, _, _, _, -, -, -, -, -, -, hsound, hvacated, -⟩ := RowStore.evict_ok h hevict
      exact .of_steady hsound hvacated.same.steady
    | error e =>
      obtain ⟨halike, hsound, -⟩ := RowStore.evict_error h hevict
      exact .of_steady hsound halike.steady

theorem Step.kept {pool pool' : Pool T V} (h : pool.store.Sound pool.reserved)
    (hstep : Step pool pool') : Kept pool pool' := by
  cases hstep with
  | newPartition layout => exact kept_newPartition h layout
  | newItem =>
    have hsame : pool.store.SameChains pool.store.newItem.2 :=
      ⟨rfl, rfl, fun _ => rfl, fun _ => rfl⟩
    exact .of_steady (h.congr hsame (fun _ => rfl) (fun _ _ => rfl) (fun _ => rfl) h.room)
      hsame.steady
  | setId item id =>
    have hsame := RowStore.SameChains.setId pool.store item id
    exact .of_steady (h.congr hsame (fun _ => rfl) (fun _ _ => rfl) (fun _ => rfl) h.room)
      hsame.steady
  | issued hissue => exact kept_issue h hissue
  | notIssued hissue => exact kept_notIssued h hissue
  | registered hid hoccupy => exact kept_registered h hid hoccupy
  | notRegistered hid hoccupy => exact kept_notRegistered h hid hoccupy
  | insert partition item values => exact kept_insert h partition item values
  | evict partition id accept => exact kept_evict h partition id accept
  -- To free an id is to remove with a check that accepts everything.
  | release partition id => exact kept_evict h partition id fun _ => .ok ()
  | memory m => exact .of_steady (h.withMemory m) (RowStore.SameChains.withMemory _ m).steady

theorem Reachable.sound {format : IdFormat} (hvalid : format.Valid) {pool : Pool T V}
    (h : Reachable format pool) : pool.store.Sound pool.reserved := by
  induction h with
  | empty => exact RowStore.empty_sound hvalid
  | step _ hstep ih => exact (hstep.kept ih).sound

/-! ### Conservation -/

/-- The id names a slot of the partition, as `store` has it, that was neither published
nor reserved in the pool. -/
def Fresh (pool : Pool T V) (store : RowStore T V) (partition : Nat) (id : SlotId) : Prop :=
  ∃ chunk ∈ store.chain partition, ∃ row, row < store.format.rowsPerChunk ∧
    id = store.format.slotId chunk row ∧ ¬ pool.InClass partition chunk row .published ∧
      ¬ pool.InClass partition chunk row .reserved

/-- What holds of the slots of a pool, and of its next step. -/
structure Conserved (pool : Pool T V) : Prop where
  /-- Every slot of every partition is in exactly one class. -/
  one_class : ∀ partition, ∀ chunk ∈ pool.store.chain partition, ∀ row,
    row < pool.store.format.rowsPerChunk →
      ∃ k, pool.InClass partition chunk row k ∧
        ∀ k', pool.InClass partition chunk row k' → k' = k
  /-- An id on the free stack is there once and names a slot of the partition. -/
  free_once : ∀ partition, ∀ id ∈ pool.store.freeList partition,
    (pool.store.freeList partition).count id = 1 ∧
      ∃ chunk ∈ pool.store.chain partition, ∃ row, row < pool.store.format.rowsPerChunk ∧
        id = pool.store.format.slotId chunk row
  /-- Ids that are out are distinct, and each names a slot of some partition. -/
  reserved_once : pool.reserved.Nodup ∧ ∀ id ∈ pool.reserved, ∃ partition,
    ∃ chunk ∈ pool.store.chain partition, ∃ row, row < pool.store.format.rowsPerChunk ∧
      id = pool.store.format.slotId chunk row
  issue_fresh : ∀ partition id store, pool.store.issue partition = (.ok id, store) →
    pool.Fresh store partition id
  insert_fresh : ∀ partition item values id store,
    pool.store.insert partition item values = (.ok id, store) → pool.Fresh store partition id
  /-- An id that is out cannot be removed or freed. -/
  reserved_refused : ∀ id ∈ pool.reserved, ∀ partition,
    (∀ (α : Type) (accept : RowView V → Except StoreError α),
      (pool.store.evict partition id accept).1 = .error .entityNotFound) ∧
    (pool.store.release partition id).1 = .error .entityNotFound
  /-- A reserved slot stays reserved through any step but its registration. -/
  reserved_stays : ∀ pool', Step pool pool' → ∀ partition,
    ∀ chunk ∈ pool.store.chain partition, ∀ row, row < pool.store.format.rowsPerChunk →
      pool.InClass partition chunk row .reserved →
        pool'.InClass partition chunk row .reserved ∨
          pool'.reserved = pool.reserved.erase (pool.store.format.slotId chunk row) ∧
            pool'.InClass partition chunk row .published
  /-- No step takes a slot away from a partition. -/
  slots_stay : ∀ pool', Step pool pool' →
    pool'.store.format = pool.store.format ∧
      ∀ partition, pool.store.chain partition <+: pool'.store.chain partition

omit [ComponentType T] in
/-- A row that was empty and whose id is not reserved makes a fresh id. -/
theorem fresh_of_empty {pool : Pool T V} {store : RowStore T V} {partition chunk row : Nat}
    (hformat : store.format = pool.store.format) (hc : chunk ∈ store.chain partition)
    (hrow : row < pool.store.format.rowsPerChunk) (hempty : pool.store.cell? chunk row = none)
    (hres : pool.store.format.slotId chunk row ∉ pool.reserved) :
    pool.Fresh store partition (pool.store.format.slotId chunk row) := by
  refine ⟨chunk, hc, row, by rwa [hformat], by rw [hformat], ?_, hres⟩
  rintro ⟨cell, hcell⟩
  rw [hempty] at hcell
  cases hcell

omit [ComponentType T] in
theorem evict_reserved {pool : Pool T V} (h : pool.store.Sound pool.reserved) {id : SlotId}
    (hid : id ∈ pool.reserved) (partition : Nat) {α : Type}
    (accept : RowView V → Except StoreError α) :
    (pool.store.evict partition id accept).1 = .error .entityNotFound := by
  unfold RowStore.evict
  cases hlocate : pool.store.locate partition id with
  | none => rfl
  | some place =>
    obtain ⟨chunk, row⟩ := place
    obtain ⟨hplace, hc, hr⟩ := h.locate_eq_some_iff.mp hlocate
    obtain ⟨_, c, hc', r, hr', rfl⟩ := h.of_reserved hid
    rw [h.chunkOf_slotId (h.chain_lt _ c hc') (h.lt_rowsPerChunk hr'),
      h.rowOf_slotId (h.chain_lt _ c hc') (h.lt_rowsPerChunk hr')] at hplace
    cases hplace
    -- The id names a claimed row, but the row is empty.
    simp only [h.cell?_of_reserved hc hid]

/-- Slots are conserved, whatever the partitions of the store have done. -/
theorem Reachable.conserved {rowBits : Nat} {limit : Option Nat} {format : IdFormat}
    (hformat : IdFormat.create rowBits limit = .ok format) {pool : Pool T V}
    (hreach : Reachable format pool) : pool.Conserved := by
  have h : pool.store.Sound pool.reserved := hreach.sound (IdFormat.create_valid hformat)
  refine ⟨?_, ?_, ?_, ?_, ?_, ?_, ?_, ?_⟩
  · intro partition chunk hc row hr
    obtain ⟨k, hk, honly, -⟩ := exists_class (h.shares_one partition chunk hc row hr)
    exact ⟨k, hk, honly⟩
  · intro partition id hid
    obtain ⟨chunk, hc, row, hr, rfl⟩ := h.free_slot partition id hid
    have hone := h.shares_one partition chunk hc row hr
    -- The share of the stack is the whole share of the slot.
    have hpos := List.one_le_count_iff.mpr hid
    rw [RowStore.shares] at hone
    exact ⟨by omega, chunk, hc, row, hr, rfl⟩
  · refine ⟨?_, fun id hid => ?_⟩
    -- An id that was out twice would be counted twice.
    · rw [List.nodup_iff_count]
      intro id
      by_cases hid : id ∈ pool.reserved
      · obtain ⟨partition, chunk, hc, row, hr, rfl⟩ := h.of_reserved hid
        have hone := h.shares_one partition chunk hc row (h.lt_rowsPerChunk hr)
        rw [RowStore.shares] at hone
        omega
      · rw [List.count_eq_zero.mpr hid]
        exact Nat.zero_le 1
    · obtain ⟨partition, chunk, hc, row, hr, rfl⟩ := h.of_reserved hid
      exact ⟨partition, chunk, hc, row, h.lt_rowsPerChunk hr, rfl⟩
  · intro partition id store hissue
    obtain ⟨chunk, row, rfl, hissued, hsound⟩ := RowStore.issue_ok h hissue
    exact fresh_of_empty hissued.steady.format hissued.mem_chain hissued.row_lt hissued.empty
      hsound.not_mem_reserved
  · intro partition item values id store hinsert
    obtain ⟨chunk, row, rfl, hres, -, hstored, -⟩ := RowStore.insert_ok h hinsert
    exact fresh_of_empty hstored.steady.format hstored.mem_chain hstored.row_lt hstored.empty
      hres
  · intro id hid partition
    exact ⟨fun α accept => evict_reserved h hid partition accept,
      evict_reserved h hid partition fun _ => .ok ()⟩
  · intro pool' hstep partition chunk hc row hr hres
    exact (hstep.kept h).reserved partition chunk hc row hr hres
  · intro pool' hstep
    exact ⟨(hstep.kept h).format, (hstep.kept h).chain⟩

/-- So many items are inserted into the first of all partitions, with chunks of four rows. -/
def withItems : Nat → Pool Sample Nat
  | 0 => ⟨((RowStore.empty ⟨2, 1 <<< 28⟩).newPartition [Sample.position]).2, []⟩
  | n + 1 => ⟨((withItems n).store.newItem.2.insert 0 n [n]).2, (withItems n).reserved⟩

theorem reachable_withItems (n : Nat) : Reachable ⟨2, 1 <<< 28⟩ (withItems n) := by
  induction n with
  | zero => exact .step .empty (.newPartition _ [Sample.position])
  | succ n ih => exact .step (.step ih (.newItem _)) (.insert _ 0 n [n])

theorem issue_withItems_five :
    (withItems 5).store.issue 0 = (.ok 5, ((withItems 5).store.issue 0).2) := by
  have hanswer : ((withItems 5).store.issue 0).1.toOption = some 5 := by decide +kernel
  cases hissue : (withItems 5).store.issue 0 with
  | mk answer store =>
    rw [hissue] at hanswer
    cases answer with
    | error e => cases hanswer
    | ok id =>
      cases hanswer
      rfl

/-- The last of five items begins another chunk, and an id is issued behind it. Its row is given
up and stays a hole, and so is a row of the first chunk, to which the last item there moves. -/
def onePending : Pool Sample Nat :=
  ⟨((((withItems 5).store.issue 0).2.release 0 4).2.release 0 0).2, [5]⟩

theorem onePending_conserved :
    IdFormat.create 2 none = .ok ⟨2, 1 <<< 28⟩ ∧ Reachable ⟨2, 1 <<< 28⟩ onePending ∧
      (∀ row < 3, onePending.InClass 0 0 row .published) ∧ onePending.InClass 0 0 3 .free ∧
      onePending.InClass 0 1 0 .free ∧ onePending.store.Hole 0 4 ∧
      onePending.InClass 0 1 1 .reserved ∧
      (∀ row ∈ [2, 3], onePending.InClass 0 1 row .unclaimed) ∧ onePending.Conserved := by
  have hformat : IdFormat.create 2 none = .ok ⟨2, 1 <<< 28⟩ := rfl
  have hreach : Reachable ⟨2, 1 <<< 28⟩ onePending :=
    .step (.step (.step (reachable_withItems 5) (.issued _ issue_withItems_five)) (.release _ 0 4))
      (.release _ 0 0)
  refine ⟨hformat, hreach, by decide +kernel, by decide +kernel, by decide +kernel, ?_,
    by decide +kernel, by decide +kernel, Reachable.conserved hformat hreach⟩
  exact ⟨by decide +kernel, by decide +kernel⟩

end Pool

end ArchetypeStore

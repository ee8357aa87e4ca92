import ArchetypeStore.Proofs.RowStore.Isolation
import ArchetypeStore.Proofs.RowStore.Reuse
import Mathlib.Algebra.GroupWithZero.Nat

/-! # A partition grows only when it is full

  The slots of a partition are the rows of the chunks in its chain. A slot is taken when
  its row holds an item or its id is out. As long as one slot is not taken, it lies on the
  free stack or behind the fill index of the current chunk, so an id that is asked for is
  found there. Only when all slots are taken does the partition ask for another chunk.

  When it gets one, all old slots stay taken and one slot of the new chunk is taken as well.
  So the number of chunks is bounded by the largest number of slots that were ever taken.
-/

namespace ArchetypeStore.Pool

variable {T V : Type} {pool pool' : Pool T V} {partition : Nat}

/-! ### Slots that are taken -/

/-- The row holds an item, or its id is out. -/
def isTaken (pool : Pool T V) (chunk row : Nat) : Bool :=
  (pool.store.cell? chunk row).isSome ||
    pool.reserved.contains (pool.store.format.slotId chunk row)

/-- The number of taken slots of a chunk. -/
def takenIn (pool : Pool T V) (chunk : Nat) : Nat :=
  (List.range pool.store.format.rowsPerChunk).countP (pool.isTaken chunk)

/-- The number of taken slots of a partition. -/
def taken (pool : Pool T V) (partition : Nat) : Nat :=
  ((pool.store.chain partition).map pool.takenIn).sum

/-- Every slot of the partition is published or reserved. -/
def Full (pool : Pool T V) (partition : Nat) : Prop :=
  ∀ chunk ∈ pool.store.chain partition, ∀ row, row < pool.store.format.rowsPerChunk →
    pool.InClass partition chunk row .published ∨ pool.InClass partition chunk row .reserved

theorem isTaken_iff {chunk row : Nat} :
    pool.isTaken chunk row = true ↔ (∃ cell, pool.store.cell? chunk row = some cell) ∨
      pool.store.format.slotId chunk row ∈ pool.reserved := by
  simp only [isTaken, Bool.or_eq_true, Option.isSome_iff_exists, List.contains_iff_mem]

/-- What is taken stays taken when no item and no id that is out is lost. -/
theorem isTaken_mono (hformat : pool'.store.format = pool.store.format)
    (hcells : ∀ c r cell, pool.store.cell? c r = some cell → pool'.store.cell? c r = some cell)
    (hreserved : ∀ id ∈ pool.reserved, id ∈ pool'.reserved) {chunk row : Nat}
    (h : pool.isTaken chunk row = true) : pool'.isTaken chunk row = true := by
  rw [isTaken_iff] at h ⊢
  rcases h with ⟨cell, hcell⟩ | hres
  · exact .inl ⟨cell, hcells chunk row cell hcell⟩
  · right
    rw [hformat]
    exact hreserved _ hres

theorem not_isTaken {chunk row : Nat} (hempty : pool.store.cell? chunk row = none)
    (hres : pool.store.format.slotId chunk row ∉ pool.reserved) :
    pool.isTaken chunk row ≠ true := by
  rw [Ne, isTaken_iff, hempty]
  rintro (⟨cell, hcell⟩ | hmem)
  · cases hcell
  · exact hres hmem

/-- All rows of a chunk are counted when all are taken. -/
theorem takenIn_of_all {chunk : Nat}
    (h : ∀ row, row < pool.store.format.rowsPerChunk → pool.isTaken chunk row = true) :
    pool.takenIn chunk = pool.store.format.rowsPerChunk := by
  have hall : ∀ row ∈ List.range pool.store.format.rowsPerChunk,
      pool.isTaken chunk row = true := by
    intro row hrow
    exact h row (List.mem_range.mp hrow)
  show List.countP _ _ = _
  rw [List.countP_eq_length.mpr hall, List.length_range]

theorem takenIn_pos {chunk row : Nat} (hrow : row < pool.store.format.rowsPerChunk)
    (htaken : pool.isTaken chunk row = true) : 0 < pool.takenIn chunk :=
  List.countP_pos_iff.mpr ⟨row, List.mem_range.mpr hrow, htaken⟩

/-- Chunks in which all rows are taken count in full. -/
theorem sum_takenIn_of_all {chunks : List Nat}
    (h : ∀ chunk ∈ chunks, ∀ row, row < pool.store.format.rowsPerChunk →
      pool.isTaken chunk row = true) :
    (chunks.map pool.takenIn).sum = chunks.length * pool.store.format.rowsPerChunk := by
  have hmap : chunks.map pool.takenIn =
      List.replicate chunks.length pool.store.format.rowsPerChunk := by
    apply List.map_eq_replicate_iff.mpr
    intro chunk hc
    exact takenIn_of_all (h chunk hc)
  rw [hmap, List.sum_replicate_nat]

/-- Behind a full partition that grew, one more slot is taken than there were slots. -/
theorem Full.lt_taken (hfull : pool.Full partition)
    (hformat : pool'.store.format = pool.store.format)
    (hkeeps : ∀ chunk row, pool.isTaken chunk row = true → pool'.isTaken chunk row = true)
    {new : Nat} (hchain : pool'.store.chain partition = pool.store.chain partition ++ [new])
    {chunk row : Nat} (hc : chunk ∈ pool'.store.chain partition)
    (hrow : row < pool.store.format.rowsPerChunk) (hnot : pool.isTaken chunk row ≠ true)
    (htaken : pool'.isTaken chunk row = true) :
    (pool.store.chain partition).length * pool.store.format.rowsPerChunk <
      pool'.taken partition := by
  have hold : ((pool.store.chain partition).map pool'.takenIn).sum =
      (pool.store.chain partition).length * pool.store.format.rowsPerChunk := by
    rw [← hformat]
    apply sum_takenIn_of_all
    intro c hc r hr
    rw [hformat] at hr
    exact hkeeps c r (isTaken_iff.mpr (hfull c hc r hr))
  -- In the old chunks all slots are taken already, so the slot lies in the new one.
  have hnew : chunk = new := by
    rw [hchain, List.mem_append, List.mem_singleton] at hc
    rcases hc with hc | hc
    · exact absurd (isTaken_iff.mpr (hfull chunk hc row hrow)) hnot
    · exact hc
  have hpos : 0 < pool'.takenIn new := by
    rw [← hformat] at hrow
    rw [← hnew]
    exact takenIn_pos hrow htaken
  rw [taken, hchain, List.map_append, List.sum_append, hold]
  simp only [List.map_cons, List.map_nil, List.sum_cons, List.sum_nil]
  omega

/-! ### Ids to spare -/

/-- Nothing is to spare in a full partition: an id that is issued was not taken before. -/
theorem Full.issueSpare (h : pool.store.Sound pool.reserved) (hfull : pool.Full partition) :
    pool.store.issueSpare partition = (none, pool.store) := by
  cases hspare : pool.store.issueSpare partition with
  | mk answer store =>
    cases answer with
    | none =>
      obtain ⟨rfl, -⟩ := RowStore.issueSpare_none h hspare
      rfl
    | some id =>
      obtain ⟨chunk, row, rfl, hissued, hsound⟩ := RowStore.issueSpare_some h hspare
      have hquiet := RowStore.issueSpare_quiet pool.store partition
      rw [hspare] at hquiet
      have hc : chunk ∈ pool.store.chain partition := by
        rw [← hquiet.chain]
        exact hissued.mem_chain
      rcases hfull chunk hc row hissued.row_lt with ⟨cell, hcell⟩ | hres
      · rw [hissued.empty] at hcell
        cases hcell
      · exact absurd hres hsound.not_mem_reserved

/-- When nothing is to spare, the partition is full: no slot is free and none is unclaimed, so
each one is published or reserved. -/
theorem full_of_issueSpare (h : pool.store.Sound pool.reserved) {store : RowStore T V}
    (hspare : pool.store.issueSpare partition = (none, store)) : pool.Full partition := by
  obtain ⟨-, hfree, hcurrent⟩ :=
    h.toChained.issueSpare_none (fun _ => h.free_owned) hspare
  intro chunk hc row hrow
  obtain ⟨k, hk, -⟩ := exists_class (h.shares_one partition chunk hc row hrow)
  cases k with
  | published => exact .inl hk
  | reserved => exact .inr hk
  | free =>
    rw [InClass, hfree] at hk
    cases hk
  | unclaimed =>
    have hfill := hcurrent chunk hk.1
    have hle := hk.2
    omega

/-! ### How a request for a slot ends -/

variable [ComponentType T]

/-- What comes of a request for a slot of a partition with these columns. -/
structure Supplied (pool : Pool T V) (partition : Nat) (layout : List T)
    (outcome : Except StoreError SlotId × RowStore T V) : Prop where
  /-- As long as one slot is not taken, a slot is found and no chunk is made. -/
  spare : ¬ pool.Full partition → (∃ id, outcome.1 = .ok id) ∧
    outcome.2.chunkCount = pool.store.chunkCount ∧
      ∀ q, outcome.2.chain q = pool.store.chain q
  /-- A full partition gets one more chunk, if it may. -/
  grown : pool.Full partition → pool.store.chunkCount < pool.store.format.maxChunks →
    RowStore.allocateChunk pool.store.memory pool.store.format.rowsPerChunk layout = .ok () →
      (∃ id, outcome.1 = .ok id) ∧ outcome.2.chunkCount = pool.store.chunkCount + 1 ∧
        ∀ q, outcome.2.chain q = if q = partition then
          pool.store.chain q ++ [pool.store.chunkCount] else pool.store.chain q
  /-- When all chunk numbers are in use, a full partition is refused. -/
  exhausted : pool.Full partition → pool.store.format.maxChunks ≤ pool.store.chunkCount →
    outcome = (.error (.chunkCapacityExhausted pool.store.format.maxChunks), pool.store)
  /-- Otherwise it is refused with the error for the memory of the new chunk. -/
  refused : pool.Full partition → pool.store.chunkCount < pool.store.format.maxChunks →
    ∀ e, RowStore.allocateChunk pool.store.memory pool.store.format.rowsPerChunk layout =
      .error e → outcome = (.error e, pool.store)
  /-- The one error is not taken for the other. -/
  exhausted_iff : (∃ n, outcome.1 = .error (.chunkCapacityExhausted n)) ↔
    pool.Full partition ∧ pool.store.format.maxChunks ≤ pool.store.chunkCount

/-- As long as one slot is not taken, an id is issued in the chunks there are. -/
theorem issue_spare (h : pool.store.Sound pool.reserved) (hnot : ¬ pool.Full partition) :
    (∃ id, (pool.store.issue partition).1 = .ok id) ∧
      pool.store.SameChains (pool.store.issue partition).2 := by
  cases hissue : pool.store.issueSpare partition with
  | mk answer store =>
    cases answer with
    | none => exact absurd (full_of_issueSpare h hissue) hnot
    | some id =>
      have hquiet := RowStore.issueSpare_quiet pool.store partition
      rw [hissue] at hquiet
      rw [RowStore.issue_of_spare hissue]
      exact ⟨⟨id, rfl⟩, hquiet.toSameChains⟩

/-- A full partition that cannot be extended refuses with the error of the extension. -/
theorem Full.issue_of_error (h : pool.store.Sound pool.reserved) (hfull : pool.Full partition)
    {e : StoreError} (hextend : pool.store.extend partition = (.error e, pool.store)) :
    pool.store.issue partition = (.error e, pool.store) := by
  simp only [RowStore.issue, hfull.issueSpare h, hextend]

/-- A full partition that was extended issues the first row of the new chunk. -/
theorem Full.issue_of_ok (h : pool.store.Sound pool.reserved) (hfull : pool.Full partition)
    {store : RowStore T V} (hextend : pool.store.extend partition = (.ok (), store)) :
    pool.store.issue partition =
      (.ok (pool.store.format.slotId pool.store.chunkCount 0),
        store.modifyRows pool.store.chunkCount (·.push none)) := by
  have hspare := hfull.issueSpare h
  obtain ⟨-, hfree, -⟩ := h.toChained.issueSpare_none (fun _ => h.free_owned) hspare
  simp only [RowStore.issue, hspare, hextend, RowStore.issueSpare_extended hextend hfree]

theorem issue_supplied (h : pool.store.Sound pool.reserved) {layout : List T}
    (hlayout : pool.store.layout? partition = some layout) :
    pool.Supplied partition layout (pool.store.issue partition) := by
  have hexhausted : pool.Full partition →
      pool.store.format.maxChunks ≤ pool.store.chunkCount → pool.store.issue partition =
        (.error (.chunkCapacityExhausted pool.store.format.maxChunks), pool.store) := by
    intro hfull hmax
    exact hfull.issue_of_error h (RowStore.extend_of_exhausted hlayout hmax)
  have hrefused : pool.Full partition → pool.store.chunkCount < pool.store.format.maxChunks →
      ∀ e, RowStore.allocateChunk pool.store.memory pool.store.format.rowsPerChunk layout =
        .error e → pool.store.issue partition = (.error e, pool.store) := by
    intro hfull hlt e halloc
    exact hfull.issue_of_error h (RowStore.extend_of_refused hlayout hlt halloc)
  refine ⟨?_, ?_, hexhausted, hrefused, ?_, ?_⟩
  · intro hnot
    obtain ⟨hok, hsame⟩ := issue_spare h hnot
    exact ⟨hok, hsame.chunkCount, hsame.chain⟩
  · intro hfull hlt halloc
    obtain ⟨store, hextend⟩ := RowStore.extend_of_allocated hlayout hlt halloc
    obtain ⟨hadds, -, hchain, -⟩ := RowStore.extend_adds hextend
    have hquiet := RowStore.claimFirst_quiet hextend
    rw [hfull.issue_of_ok h hextend]
    refine ⟨⟨_, rfl⟩, ?_, ?_⟩
    · show (store.modifyRows pool.store.chunkCount (·.push none)).chunkCount = _
      rw [hquiet.chunkCount, hadds.chunkCount]
    · intro q
      show (store.modifyRows pool.store.chunkCount (·.push none)).chain q = _
      rw [hquiet.chain, hchain]
  · rintro ⟨n, hn⟩
    by_cases hfull : pool.Full partition
    · refine ⟨hfull, Nat.le_of_not_lt fun hlt => ?_⟩
      -- There is a number for the chunk, so what is refused can only be its memory.
      cases halloc : RowStore.allocateChunk pool.store.memory pool.store.format.rowsPerChunk
          layout with
      | error e =>
        rw [hrefused hfull hlt e halloc] at hn
        exact (RowStore.allocateChunk_refused halloc).ne_chunkCapacityExhausted n
          (Except.error.inj hn)
      | ok =>
        obtain ⟨store, hextend⟩ := RowStore.extend_of_allocated hlayout hlt halloc
        rw [hfull.issue_of_ok h hextend] at hn
        cases hn
    · obtain ⟨⟨id, hok⟩, -⟩ := issue_spare h hfull
      rw [hok] at hn
      cases hn
  · rintro ⟨hfull, hmax⟩
    exact ⟨_, by rw [hexhausted hfull hmax]⟩

/-- An insertion asks for a slot as an issue does. -/
theorem insert_supplied (h : pool.store.Sound pool.reserved) {layout : List T}
    (hlayout : pool.store.layout? partition = some layout) (item : Nat) (values : List V) :
    pool.Supplied partition layout (pool.store.insert partition item values) := by
  have hissued := issue_supplied h hlayout
  have hanswer := RowStore.insert_answer h partition item values
  cases hissue : pool.store.issue partition with
  | mk answer store =>
    rw [hissue] at hissued hanswer
    cases answer with
    | error e =>
      have hinsert : pool.store.insert partition item values = (.error e, store) := by
        rw [RowStore.insert, hissue]
      rw [hinsert]
      exact hissued
    | ok id =>
      -- What follows the issue makes no chunk and cannot be refused.
      have hquiet := RowStore.insert_quiet hissue item values
      refine ⟨?_, ?_, ?_, ?_, ?_⟩
      · intro hnot
        rw [hanswer, hquiet.chunkCount]
        simpa only [hquiet.chain] using hissued.spare hnot
      · intro hfull hlt halloc
        rw [hanswer, hquiet.chunkCount]
        simpa only [hquiet.chain] using hissued.grown hfull hlt halloc
      · intro hfull hmax
        cases hissued.exhausted hfull hmax
      · intro hfull hlt e halloc
        cases hissued.refused hfull hlt e halloc
      · rw [hanswer]
        exact hissued.exhausted_iff

/-! ### The number of chunks -/

/-- What a call may do to the chain of a partition: it stays, it is that of a new partition, or
it gets one more chunk when more slots are taken than there were. -/
def ChainStep (pool pool' : Pool T V) (partition : Nat) : Prop :=
  pool'.store.chain partition = pool.store.chain partition ∨
    (pool'.store.chain partition).length ≤ 1 ∨
    (pool'.store.chain partition).length = (pool.store.chain partition).length + 1 ∧
      (pool.store.chain partition).length * pool.store.format.rowsPerChunk <
        pool'.taken partition

theorem Supplied.chainStep {q : Nat} {layout : List T}
    {outcome : Except StoreError SlotId × RowStore T V}
    (hsupplied : pool.Supplied q layout outcome) (hstore : pool'.store = outcome.2)
    (hformat : pool'.store.format = pool.store.format)
    (hkeeps : ∀ chunk row, pool.isTaken chunk row = true → pool'.isTaken chunk row = true)
    {chunk row : Nat} (hc : chunk ∈ pool'.store.chain q)
    (hrow : row < pool.store.format.rowsPerChunk) (hnot : pool.isTaken chunk row ≠ true)
    (htaken : pool'.isTaken chunk row = true) (partition : Nat) :
    ChainStep pool pool' partition := by
  by_cases hfull : pool.Full q
  · rcases Nat.lt_or_ge pool.store.chunkCount pool.store.format.maxChunks with hlt | hmax
    · cases halloc : RowStore.allocateChunk pool.store.memory pool.store.format.rowsPerChunk
          layout with
      | error e =>
        left
        rw [hstore, hsupplied.refused hfull hlt e halloc]
      | ok =>
        obtain ⟨-, -, hchain⟩ := hsupplied.grown hfull hlt halloc
        rw [← hstore] at hchain
        by_cases heq : partition = q
        · subst heq
          have hlonger := hchain partition
          rw [if_pos rfl] at hlonger
          refine .inr (.inr ⟨?_, hfull.lt_taken hformat hkeeps hlonger hc hrow hnot htaken⟩)
          rw [hlonger, List.length_append, List.length_singleton]
        · left
          rw [hchain, if_neg heq]
    · left
      rw [hstore, hsupplied.exhausted hfull hmax]
  · obtain ⟨-, -, hchain⟩ := hsupplied.spare hfull
    left
    rw [hstore, hchain]

theorem issue_chainStep (h : pool.store.Sound pool.reserved) (q partition : Nat) :
    ChainStep pool (pool.next (.issue q)) partition := by
  cases hissue : pool.store.issue q with
  | mk answer store =>
    cases answer with
    | error e =>
      obtain rfl := RowStore.issue_stays h hissue
      rw [next_issue_error hissue]
      exact .inl rfl
    | ok id =>
      cases hlayout : pool.store.layout? q with
      | none =>
        rw [RowStore.issue_of_no_layout hlayout] at hissue
        cases hissue
      | some layout =>
        obtain ⟨chunk, row, rfl, hissued, hsound⟩ := RowStore.issue_ok h hissue
        have hsupplied := issue_supplied h hlayout
        rw [hissue] at hsupplied
        rw [next_issue hissue]
        refine hsupplied.chainStep rfl hissued.steady.format ?_ hissued.mem_chain hissued.row_lt
          (not_isTaken hissued.empty hsound.not_mem_reserved) ?_ partition
        · intro c r htaken
          refine isTaken_mono hissued.steady.format ?_ ?_ htaken
          · intro c r cell hcell
            show store.cell? c r = some cell
            rw [hissued.cell, hcell]
          · intro id hid
            exact List.mem_cons_of_mem _ hid
        · rw [isTaken_iff]
          right
          show store.format.slotId chunk row ∈ _
          rw [hissued.steady.format]
          exact List.mem_cons_self ..

theorem insert_chainStep (h : pool.store.Sound pool.reserved) (q item : Nat) (values : List V)
    (partition : Nat) : ChainStep pool (pool.next (.insert q item values)) partition := by
  cases hinsert : pool.store.insert q item values with
  | mk answer store =>
    have hnext : pool.next (.insert q item values) = ⟨store, pool.reserved⟩ := by
      simp only [next, RowStore.perform, hinsert, RowStore.answering, outstanding]
    rw [hnext]
    cases answer with
    | error e =>
      obtain rfl := RowStore.insert_stays h hinsert
      exact .inl rfl
    | ok id =>
      cases hlayout : pool.store.layout? q with
      | none =>
        rw [RowStore.insert, RowStore.issue_of_no_layout hlayout] at hinsert
        cases hinsert
      | some layout =>
        obtain ⟨chunk, row, rfl, hres, -, hstored, -⟩ := RowStore.insert_ok h hinsert
        have hsupplied := insert_supplied h hlayout item values
        rw [hinsert] at hsupplied
        refine hsupplied.chainStep rfl hstored.steady.format ?_ hstored.mem_chain hstored.row_lt
          (not_isTaken hstored.empty hres) ?_ partition
        · intro c r htaken
          refine isTaken_mono hstored.steady.format ?_ ?_ htaken
          · intro c r cell hcell
            exact hstored.cell_of_some hcell
          · intro id hid
            exact hid
        · exact isTaken_iff.mpr (.inl ⟨_, hstored.cell_self⟩)

/-- No other call makes a chunk for a partition that there is. -/
theorem next_chainStep (h : pool.store.Sound pool.reserved) (call : RowStore.Call T V)
    (partition : Nat) : ChainStep pool (pool.next call) partition := by
  cases call with
  | newPartition layout =>
    cases hnew : pool.store.newPartition layout with
    | mk answer store =>
      have hnext : (pool.next (.newPartition layout)).store = store := by
        simp only [next, RowStore.perform, hnew, RowStore.answering]
      cases answer with
      | error e =>
        obtain ⟨rfl, -⟩ := RowStore.newPartition_error hnew
        left
        rw [hnext]
      | ok q =>
        have hchain := RowStore.chain_newPartition hnew partition
        rw [← hnext] at hchain
        by_cases heq : partition = q
        · right
          left
          rw [hchain, if_pos heq]
          exact Nat.le_refl 1
        · left
          rw [hchain, if_neg heq]
  | newItem => exact .inl ((RowStore.Quiet.newItem pool.store).chain partition)
  | setId item id => exact .inl ((RowStore.Quiet.setId pool.store item id).chain partition)
  | issue q => exact issue_chainStep h q partition
  | occupy q id item values =>
    exact .inl ((RowStore.occupy_quiet pool.store q id item values).chain partition)
  | insert q item values => exact insert_chainStep h q item values partition
  | evict q id accept =>
    exact .inl ((RowStore.evict_quiet h.toChained q id accept).chain partition)
  | row q id => exact .inl rfl
  | rewrite q id f => exact .inl ((RowStore.rewrite_quiet pool.store q id f).chain partition)
  | memory m => exact .inl rfl

/-- Along an orderly run a chain has one chunk, or all its chunks but one were full of slots
that were taken at the same time as one more. -/
theorem Orderly.chain_bound (h : pool.store.Sound pool.reserved)
    {calls : List (RowStore.Call T V)} (horderly : pool.Orderly calls) {n : Nat}
    (hmost : ∀ before, before <+: calls → (pool.after before).taken partition ≤ n)
    (hstart : (pool.store.chain partition).length ≤ 1 ∨
      ((pool.store.chain partition).length - 1) * pool.store.format.rowsPerChunk < n) :
    ((pool.after calls).store.chain partition).length ≤ 1 ∨
      (((pool.after calls).store.chain partition).length - 1) *
        pool.store.format.rowsPerChunk < n := by
  induction calls generalizing pool with
  | nil => exact hstart
  | cons call rest ih =>
    have hkept := next_kept h horderly.1
    have hformat := hkept.format
    have hnext : (pool.next call).taken partition ≤ n :=
      hmost [call] (List.cons_prefix_cons.mpr ⟨rfl, List.nil_prefix⟩)
    have hlater := ih hkept.sound horderly.2 ?_ ?_
    · rwa [hformat] at hlater
    · intro before hbefore
      exact hmost (call :: before) (List.cons_prefix_cons.mpr ⟨rfl, hbefore⟩)
    · rw [hformat]
      rcases next_chainStep h call partition with hsame | hone | ⟨hlength, htaken⟩
      · rw [hsame]
        exact hstart
      · exact .inl hone
      · right
        rw [hlength, Nat.add_sub_cancel]
        exact Nat.lt_of_lt_of_le htaken hnext

theorem length_le_of_bound {length rows n : Nat} (hrows : 0 < rows)
    (h : length ≤ 1 ∨ (length - 1) * rows < n) :
    length ≤ max 1 ((n + rows - 1) / rows) := by
  rcases h with hone | hmany
  · exact Nat.le_trans hone (Nat.le_max_left ..)
  · apply Nat.le_trans _ (Nat.le_max_right ..)
    rw [Nat.le_div_iff_mul_le hrows]
    rw [Nat.sub_one_mul] at hmany
    omega

/-- A partition grows only when all its slots are published or reserved; it refuses only then,
and only when it cannot grow. So it has no more chunks than the slots that were taken at any one
time need. -/
theorem Orderly.grows_when_full {rowBits : Nat} {limit : Option Nat} {format : IdFormat}
    (hformat : IdFormat.create rowBits limit = .ok format) {calls : List (RowStore.Call T V)}
    (horderly : (Pool.empty format).Orderly calls) {partition : Nat} {layout : List T}
    (hlayout : ((Pool.empty format).after calls).store.layout? partition = some layout) :
    ((Pool.empty format).after calls).Supplied partition layout
        (((Pool.empty format).after calls).store.issue partition) ∧
      (∀ item values, ((Pool.empty format).after calls).Supplied partition layout
        (((Pool.empty format).after calls).store.insert partition item values)) ∧
      ∀ n, (∀ before, before <+: calls →
          ((Pool.empty format).after before).taken partition ≤ n) →
        (((Pool.empty format).after calls).store.chain partition).length ≤
          max 1 ((n + format.rowsPerChunk - 1) / format.rowsPerChunk) := by
  have h := horderly.sound_of_empty hformat
  refine ⟨issue_supplied h hlayout, insert_supplied h hlayout, fun n hmost => ?_⟩
  have hempty : ((Pool.empty format : Pool T V).store.chain partition).length ≤ 1 :=
    Nat.zero_le 1
  exact length_le_of_bound (IdFormat.rowsPerChunk_pos format)
    (horderly.chain_bound (RowStore.empty_sound (IdFormat.create_valid hformat)) hmost
      (.inl hempty))

/-- Two partitions share three chunks of four rows. The first one grows once and is filled up,
with one id that is out and another that was given up and issued again. -/
def packing : List (RowStore.Call Sample Nat) :=
  [.newPartition [.position], .newPartition [.velocity], .insert 0 0 [1], .insert 0 1 [2],
    .issue 0, .insert 0 2 [3], .issue 1, .insert 0 3 [4], .evict 0 0 fun _ => .ok (),
    .insert 0 4 [5], .insert 0 5 [6], .insert 0 6 [7], .issue 0, .occupy 0 2 7 [8]]

def packed : Pool Sample Nat := (Pool.empty ⟨2, 3⟩).after packing

theorem grows_when_full_packed :
    IdFormat.create 2 (some 3) = .ok ⟨2, 3⟩ ∧
      (Pool.empty ⟨2, 3⟩ : Pool Sample Nat).Orderly packing ∧
      packed.store.layout? 0 = some [.position] ∧ packed.Full 0 ∧
      packed.store.insert 0 8 [9] = (.error (.chunkCapacityExhausted 3), packed.store) ∧
      packed.store.chain 0 = [0, 2] ∧ (packed.store.chain 0).length ≤ max 1 ((8 + 4 - 1) / 4) := by
  have hformat : IdFormat.create 2 (some 3) = .ok ⟨2, 3⟩ := rfl
  have horderly : (Pool.empty ⟨2, 3⟩ : Pool Sample Nat).Orderly packing := by
    simp only [packing, Orderly, Allows, true_and, and_true]
    decide +kernel
  have hlayout : packed.store.layout? 0 = some [.position] := by decide +kernel
  have hformat' : packed.store.format = ⟨2, 3⟩ := by decide +kernel
  have hmax : packed.store.format.maxChunks ≤ packed.store.chunkCount := by decide +kernel
  have hrefused : (packed.store.issue 0).1.toOption = none := by decide +kernel
  have hchain : packed.store.chain 0 = [0, 2] := by decide +kernel
  have htaken : ∀ k, k < 15 →
      ((Pool.empty ⟨2, 3⟩ : Pool Sample Nat).after (packing.take k)).taken 0 ≤ 8 := by
    decide +kernel
  obtain ⟨hissue, hinsert, hbound⟩ := Orderly.grows_when_full hformat horderly hlayout
  have hfull : packed.Full 0 := by
    apply Classical.byContradiction
    intro hnot
    obtain ⟨⟨id, hok⟩, -⟩ := hissue.spare hnot
    have hnone : (packed.store.issue 0).1.toOption = some id := congrArg Except.toOption hok
    rw [hrefused] at hnone
    cases hnone
  refine ⟨hformat, horderly, hlayout, hfull, ?_, hchain, ?_⟩
  · have hexhausted : packed.store.insert 0 8 [9] =
        (.error (.chunkCapacityExhausted packed.store.format.maxChunks), packed.store) :=
      (hinsert 8 [9]).exhausted hfull hmax
    rw [hformat'] at hexhausted
    exact hexhausted
  · apply hbound 8
    intro before hbefore
    have hlength : before.length < 15 := Nat.lt_succ_of_le hbefore.length_le
    have hbound := htaken before.length hlength
    rwa [← List.prefix_iff_eq_take.mp hbefore] at hbound

end ArchetypeStore.Pool

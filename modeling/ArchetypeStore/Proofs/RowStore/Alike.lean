import ArchetypeStore.Proofs.RowStore.Orderly

/-! # Room on a free stack cannot be seen

  A removal makes room on the free stack before the caller's check, so a removal that is
  refused may leave a wider stack. Two stores that differ in this only answer every call
  alike, and stay alike, as long as ids are registered only while they are out. A removal
  from a full free stack is the one call that asks for more room; that both answer it alike
  takes a memory that does not refuse it.
-/

namespace ArchetypeStore

namespace RowStore

variable {T V : Type} {s s' : RowStore T V} {reserved : List SlotId} {partition : Nat}

/-! ### Alike stores -/

namespace Alike

theorem symm (h : Alike s s') : Alike s' s :=
  ⟨⟨h.format.symm, h.chunkCount.symm, fun q => (h.layout q).symm, fun q => (h.chain q).symm⟩,
    h.chunks.symm, h.ids.symm, fun q => (h.free q).symm, h.memory.symm⟩

theorem trans {s'' : RowStore T V} (h : Alike s s') (h' : Alike s' s'') : Alike s s'' :=
  ⟨h.toSameChains.trans h'.toSameChains, h'.chunks.trans h.chunks, h'.ids.trans h.ids,
    fun q => (h'.free q).trans (h.free q), h'.memory.trans h.memory⟩

variable (h : Alike s s')

include h

theorem partition_none (hp : s.partitions[partition]? = none) :
    s'.partitions[partition]? = none := by
  have hlayout := h.layout partition
  unfold layout? at hlayout
  rw [hp] at hlayout
  exact Option.map_eq_none_iff.mp hlayout

/-- A partition is there in both, with the same chain and the same free ids. -/
theorem partition_some {p : Partition T} (hp : s.partitions[partition]? = some p) :
    ∃ p', s'.partitions[partition]? = some p' ∧ p'.layout = p.layout ∧ p'.chain = p.chain ∧
      p'.freeIds.toList = p.freeIds.toList := by
  have hlayout := h.layout partition
  have hchain := h.chain partition
  have hfree := h.free partition
  unfold layout? at hlayout
  rw [hp] at hlayout
  obtain ⟨p', hp', heq⟩ := Option.map_eq_some_iff.mp hlayout
  rw [chain_eq hp, chain_eq hp'] at hchain
  rw [freeList_eq hp, freeList_eq hp'] at hfree
  exact ⟨p', hp', heq, Array.toList_inj.mp hchain, hfree⟩

theorem locate (partition : Nat) (id : SlotId) :
    s'.locate partition id = s.locate partition id := by
  unfold RowStore.locate
  cases hp : s.partitions[partition]? with
  | none => rw [h.partition_none hp]
  | some p =>
    obtain ⟨p', hp', -, hchain, -⟩ := h.partition_some hp
    have howns : ∀ chunk, p'.owns chunk = p.owns chunk := fun chunk => by
      rw [Partition.owns, Partition.position?, hchain]
      rfl
    rw [hp']
    simp only [howns, h.format, h.fill]

theorem row (partition : Nat) (id : SlotId) : s'.row partition id = s.row partition id := by
  unfold RowStore.row
  rw [h.locate]
  simp only [h.view]

/-! ### Primitive changes -/

theorem modifyChunk (chunk : Nat) (f : Chunk T V → Chunk T V) :
    Alike (s.modifyChunk chunk f) (s'.modifyChunk chunk f) := by
  have hchunks : (s'.modifyChunk chunk f).chunks = (s.modifyChunk chunk f).chunks := by
    unfold RowStore.modifyChunk
    rw [h.chunks]
  exact ⟨⟨h.format, congrArg Array.size hchunks, h.layout, h.chain⟩, hchunks, h.ids, h.free,
    h.memory⟩

theorem modifyRows (chunk : Nat) (f : Array (Option (Cell V)) → Array (Option (Cell V))) :
    Alike (s.modifyRows chunk f) (s'.modifyRows chunk f) :=
  h.modifyChunk chunk fun c => { c with rows := f c.rows }

theorem claimUpTo (chunk row : Nat) : Alike (s.claimUpTo chunk row) (s'.claimUpTo chunk row) :=
  h.modifyRows chunk _

theorem setCell (chunk row : Nat) (cell : Option (Cell V)) :
    Alike (s.setCell chunk row cell) (s'.setCell chunk row cell) := h.modifyRows chunk _

theorem setId (item : Nat) (id : SlotId) : Alike (s.setId item id) (s'.setId item id) := by
  refine ⟨⟨h.format, h.chunkCount, h.layout, h.chain⟩, h.chunks, ?_, h.free, h.memory⟩
  unfold RowStore.setId
  rw [h.ids]

theorem relocate (item : Nat) (id : SlotId) :
    Alike (s.relocate item id) (s'.relocate item id) := by
  have hid : s'.idOf item = s.idOf item := by rw [idOf, idOf, h.ids]
  unfold RowStore.relocate
  rw [hid]
  exact h.setId item _

theorem withMemory (m : Memory) : Alike (s.withMemory m) (s'.withMemory m) :=
  ⟨⟨h.format, h.chunkCount, h.layout, h.chain⟩, h.chunks, h.ids, h.free, rfl⟩

theorem newItem : Alike s.newItem.2 s'.newItem.2 := by
  refine ⟨⟨h.format, h.chunkCount, h.layout, h.chain⟩, h.chunks, ?_, h.free, h.memory⟩
  unfold RowStore.newItem
  rw [h.ids]

/-- Free stacks that hold the same ids may be put in their places. -/
theorem swapFreeIds {p p' : Partition T} (hp : s.partitions[partition]? = some p)
    (hp' : s'.partitions[partition]? = some p') {freeIds freeIds' : FreeStack}
    (hlist : freeIds'.toList = freeIds.toList) :
    Alike (s.setFreeIds partition freeIds) (s'.setFreeIds partition freeIds') := by
  have hsame := SameChains.setFreeIds s partition freeIds
  have hsame' := SameChains.setFreeIds s' partition freeIds'
  refine ⟨⟨h.format, h.chunkCount, ?_, ?_⟩, h.chunks, h.ids, ?_, h.memory⟩
  · intro q
    rw [hsame.layout, hsame'.layout, h.layout]
  · intro q
    rw [hsame.chain, hsame'.chain, h.chain]
  · intro q
    rw [freeList_setFreeIds s hp, freeList_setFreeIds s' hp', hlist, h.free]

end Alike

/-- Two outcomes with the same answer and stores that are alike. -/
structure Matches {β : Type} (outcome outcome' : β × RowStore T V) : Prop where
  answer : outcome'.1 = outcome.1
  store : Alike outcome.2 outcome'.2

theorem Matches.split {β : Type} {outcome outcome' : β × RowStore T V}
    (h : Matches outcome outcome') : ∃ answer s s', outcome = (answer, s) ∧
      outcome' = (answer, s') ∧ Alike s s' :=
  ⟨outcome.1, outcome.2, outcome'.2, rfl, by rw [← h.answer], h.store⟩

theorem Matches.answering {β : Type} {outcome outcome' : Except StoreError β × RowStore T V}
    (h : Matches outcome outcome') (f : β → Answer V) :
    Matches (RowStore.answering f outcome) (RowStore.answering f outcome') :=
  ⟨congrArg (Except.map f) h.answer, h.store⟩

/-! ### Issue -/

section issue

variable (h : Alike s s')

include h

theorem Alike.claimNext (partition : Nat) :
    Matches (s.claimNext partition) (s'.claimNext partition) := by
  rw [claimNext_eq, claimNext_eq, h.current?]
  cases s.current? partition with
  | none => exact ⟨rfl, h⟩
  | some chunk =>
    simp only [h.fill, h.format]
    split
    · exact ⟨rfl, h.modifyRows chunk (·.push none)⟩
    · exact ⟨rfl, h⟩

theorem Alike.issueSpare (partition : Nat) :
    Matches (s.issueSpare partition) (s'.issueSpare partition) := by
  cases hp : s.partitions[partition]? with
  | none =>
    rw [RowStore.issueSpare, RowStore.issueSpare, hp, h.partition_none hp]
    exact ⟨rfl, h⟩
  | some p =>
    obtain ⟨p', hp', -, hchain, hlist⟩ := h.partition_some hp
    cases hfree : p.freeIds.toList with
    | nil =>
      rw [issueSpare_of_no_free hp hfree, issueSpare_of_no_free hp' (hlist.trans hfree)]
      exact h.claimNext partition
    | cons id rest =>
      have hfree' : p'.freeIds.toList = id :: rest := hlist.trans hfree
      have hpop : p.freeIds.pop = (some id, p.freeIds.pop.2) := by
        rw [← (BoundedStack.pop_of_toList_cons hfree).1]
      have hpop' : p'.freeIds.pop = (some id, p'.freeIds.pop.2) := by
        rw [← (BoundedStack.pop_of_toList_cons hfree').1]
      have hrest : p'.freeIds.pop.2.toList = p.freeIds.pop.2.toList := by
        rw [(BoundedStack.pop_of_toList_cons hfree).2, (BoundedStack.pop_of_toList_cons hfree').2]
      have howns : p'.owns (s.format.chunkOf id) = p.owns (s.format.chunkOf id) := by
        rw [Partition.owns, Partition.position?, hchain]
        rfl
      have hpopped := h.swapFreeIds hp hp' hrest
      unfold RowStore.issueSpare
      rw [hp, hp']
      simp only
      rw [hpop, hpop']
      simp only [h.format, howns]
      split
      · exact ⟨rfl, hpopped.claimUpTo _ _⟩
      · exact hpopped.claimNext partition

variable [ComponentType T]

omit [ComponentType T] in
theorem Alike.linkNext (previous : Option Nat) (next : Nat) :
    Alike (s.linkNext previous next) (s'.linkNext previous next) := by
  cases previous with
  | none => exact h
  | some previous => exact h.modifyChunk previous _

omit [ComponentType T] in
theorem Alike.addChunk (chunk : Chunk T V) : Alike (s.addChunk chunk) (s'.addChunk chunk) := by
  have hchunks : (s'.addChunk chunk).chunks = (s.addChunk chunk).chunks := by
    unfold RowStore.addChunk
    rw [h.chunks]
  exact ⟨⟨h.format, congrArg Array.size hchunks, h.layout, h.chain⟩, hchunks, h.ids, h.free,
    h.memory⟩

theorem Alike.newChunk (layout : List T) (previous : Option Nat) :
    Matches (s.newChunk layout previous) (s'.newChunk layout previous) := by
  unfold RowStore.newChunk
  rw [h.format, h.chunkCount, h.memory]
  split
  · exact ⟨rfl, h⟩
  · split
    · exact ⟨rfl, h⟩
    · exact ⟨rfl, (h.linkNext previous s.chunkCount).addChunk _⟩

omit [ComponentType T] in
theorem Alike.partitions_size : s'.partitions.size = s.partitions.size := by
  -- A partition number is in use in both stores or in neither.
  have hnone : ∀ q, s'.partitions.size ≤ q ↔ s.partitions.size ≤ q := by
    intro q
    rw [← Array.getElem?_eq_none_iff, ← Array.getElem?_eq_none_iff]
    exact ⟨h.symm.partition_none, h.partition_none⟩
  have := hnone s.partitions.size
  have := hnone s'.partitions.size
  omega

omit [ComponentType T] in
theorem Alike.pushPartition (p : Partition T) :
    Alike { s with partitions := s.partitions.push p }
      { s' with partitions := s'.partitions.push p } := by
  have hsize := h.partitions_size
  have hget : ∀ q, (q = s.partitions.size ∧
      (s'.partitions.push p)[q]? = some p ∧ (s.partitions.push p)[q]? = some p) ∨
      ((s'.partitions.push p)[q]? = s'.partitions[q]? ∧
        (s.partitions.push p)[q]? = s.partitions[q]?) := by
    intro q
    rw [Array.getElem?_push, Array.getElem?_push, hsize]
    split
    · rename_i heq
      exact .inl ⟨heq, rfl, rfl⟩
    · exact .inr ⟨rfl, rfl⟩
  refine ⟨⟨h.format, h.chunkCount, fun q => ?_, fun q => ?_⟩, h.chunks, h.ids, fun q => ?_,
    h.memory⟩
  · rcases hget q with ⟨-, hnew', hnew⟩ | ⟨hold', hold⟩
    · simp only [layout?, hnew', hnew]
    · simpa only [layout?, hold', hold] using h.layout q
  · rcases hget q with ⟨-, hnew', hnew⟩ | ⟨hold', hold⟩
    · simp only [chain, hnew', hnew]
    · simpa only [chain, hold', hold] using h.chain q
  · rcases hget q with ⟨-, hnew', hnew⟩ | ⟨hold', hold⟩
    · simp only [freeList, hnew', hnew]
    · simpa only [freeList, hold', hold] using h.free q

omit [ComponentType T] in
theorem Alike.pushChain (partition chunk : Nat) :
    Alike (s.modifyPartition partition fun p => { p with chain := p.chain.push chunk })
      (s'.modifyPartition partition fun p => { p with chain := p.chain.push chunk }) := by
  refine ⟨⟨h.format, h.chunkCount, fun q => ?_, fun q => ?_⟩, h.chunks, h.ids, fun q => ?_,
    h.memory⟩
  all_goals
    cases hp : s.partitions[q]? with
    | none =>
      simp only [layout?, chain_eq_getD, freeList, partitions_modifyPartition, hp,
        h.partition_none hp]
    | some p =>
      obtain ⟨p', hp', hlayout, hchain, hfree⟩ := h.partition_some hp
      simp only [layout?, chain_eq_getD, freeList, partitions_modifyPartition, hp, hp']
      split <;> simp [hlayout, hchain, hfree]

theorem Alike.newPartition (layout : List T) :
    Matches (s.newPartition layout) (s'.newPartition layout) := by
  obtain ⟨answer, s₁, s₁', hnew, hnew', halike⟩ := (h.newChunk layout none).split
  unfold RowStore.newPartition
  rw [hnew, hnew']
  cases answer with
  | error e => exact ⟨rfl, halike⟩
  | ok chunk =>
    simp only [BoundedStack.allocate_zero]
    exact ⟨by rw [halike.partitions_size], halike.pushPartition _⟩

theorem Alike.extend (partition : Nat) :
    Matches (s.extend partition) (s'.extend partition) := by
  cases hp : s.partitions[partition]? with
  | none =>
    rw [RowStore.extend, RowStore.extend, hp, h.partition_none hp]
    exact ⟨rfl, h⟩
  | some p =>
    obtain ⟨p', hp', hlayout, hchain, -⟩ := h.partition_some hp
    have hcurrent : p'.current? = p.current? := by rw [Partition.current?, hchain]; rfl
    obtain ⟨answer, s₁, s₁', hnew, hnew', halike⟩ := (h.newChunk p.layout p.current?).split
    unfold RowStore.extend
    rw [hp, hp']
    simp only
    rw [hlayout, hcurrent, hnew, hnew']
    cases answer with
    | error e => exact ⟨rfl, halike⟩
    | ok chunk => exact ⟨rfl, halike.pushChain partition chunk⟩

theorem Alike.issue (partition : Nat) : Matches (s.issue partition) (s'.issue partition) := by
  obtain ⟨first, s₁, s₁', hspare, hspare', halike⟩ := (h.issueSpare partition).split
  unfold RowStore.issue
  rw [hspare, hspare']
  cases first with
  | some id => exact ⟨rfl, halike⟩
  | none =>
    obtain ⟨grown, s₂, s₂', hextend, hextend', halike₂⟩ := (halike.extend partition).split
    simp only
    rw [hextend, hextend']
    cases grown with
    | error e => exact ⟨rfl, halike₂⟩
    | ok =>
      obtain ⟨again, s₃, s₃', hlast, hlast', halike₃⟩ := (halike₂.issueSpare partition).split
      simp only
      rw [hlast, hlast']
      cases again with
      | some id => exact ⟨rfl, halike₃⟩
      | none => exact ⟨by simp only [halike₃.format], halike₃⟩

end issue

/-! ### Items -/

section items

variable (h : Alike s s')

include h

theorem Alike.occupyRow (chunk row item : Nat) (values : List V) :
    Matches (s.occupyRow chunk row item values) (s'.occupyRow chunk row item values) := by
  unfold RowStore.occupyRow
  rw [h.cell?]
  split
  · exact ⟨rfl, h.setCell chunk row _⟩
  · exact ⟨by rw [h.format], h.setCell chunk row _⟩

theorem Alike.insert [ComponentType T] (partition item : Nat) (values : List V) :
    Matches (s.insert partition item values) (s'.insert partition item values) := by
  obtain ⟨answer, s₁, s₁', hissue, hissue', halike⟩ := (h.issue partition).split
  unfold RowStore.insert
  rw [hissue, hissue']
  cases answer with
  | error e => exact ⟨rfl, halike⟩
  | ok id =>
    simp only
    rw [halike.locate]
    split
    · exact ⟨rfl, halike⟩
    · rename_i chunk row _
      obtain ⟨stored, s₂, s₂', hstore, hstore', halike₂⟩ :=
        ((halike.setId item id).occupyRow chunk row item values).split
      rw [hstore, hstore']
      cases stored with
      | error e => exact ⟨rfl, halike₂⟩
      | ok => exact ⟨rfl, halike₂⟩

theorem Alike.occupy (partition : Nat) (id : SlotId) (item : Nat) (values : List V) :
    Matches (s.occupy partition id item values) (s'.occupy partition id item values) := by
  unfold RowStore.occupy
  rw [h.locate]
  split
  · exact ⟨rfl, h⟩
  · rename_i chunk row _
    rw [h.cell?]
    split
    · exact ⟨rfl, (h.setId item id).setCell chunk row _⟩
    · exact ⟨by rw [h.format], h.setId item id⟩

theorem Alike.rewrite (partition : Nat) (id : SlotId) (f : List V → List V) :
    Matches (s.rewrite partition id f) (s'.rewrite partition id f) := by
  unfold RowStore.rewrite
  rw [h.row]
  split
  · exact ⟨rfl, h⟩
  · split
    · exact ⟨rfl, h⟩
    · exact ⟨rfl, h.setCell _ _ _⟩

end items

/-! ### Removal -/

/-- A free stack of the partition has room for one more id. -/
def HasRoom (s : RowStore T V) (partition : Nat) : Prop :=
  ∃ p, s.partitions[partition]? = some p ∧ p.freeIds.top < p.freeIds.capacity

section removal

variable (h : Alike s s') (hroom : s.HasRoom partition) (hroom' : s'.HasRoom partition)

include h hroom hroom'

theorem Alike.pushFree {id : SlotId} (hid : id.isPlain = true) :
    Alike (s.pushFree partition id) (s'.pushFree partition id) := by
  obtain ⟨p, hp, htop⟩ := hroom
  obtain ⟨p', hp', htop'⟩ := hroom'
  have hsame := SameChains.pushFree s partition id
  have hsame' := SameChains.pushFree s' partition id
  refine ⟨⟨h.format, h.chunkCount, ?_, ?_⟩, h.chunks, h.ids, ?_, h.memory⟩
  · intro q
    rw [hsame.layout, hsame'.layout, h.layout]
  · intro q
    rw [hsame.chain, hsame'.chain, h.chain]
  · intro q
    rw [freeList_pushFree s hp hid htop, freeList_pushFree s' hp' hid htop', h.free]

theorem Alike.giveUpLast {chunk last : Nat} (hid : (s.format.slotId chunk last).isPlain = true) :
    Alike (s.giveUpLast partition chunk last) (s'.giveUpLast partition chunk last) := by
  have hpop := h.modifyRows chunk Array.pop
  by_cases hcurrent : s.current? partition = some chunk
  · have hcurrent' : s'.current? partition = some chunk := by rw [h.current?, hcurrent]
    rw [giveUpLast_of_current hcurrent, giveUpLast_of_current hcurrent']
    exact hpop
  · have hcurrent' : s'.current? partition ≠ some chunk := by rwa [h.current?]
    rw [giveUpLast_of_old hcurrent, giveUpLast_of_old hcurrent', h.format]
    exact hpop.pushFree hroom hroom' hid

theorem Alike.evictRow {chunk row : Nat} (hrow : (s.format.slotId chunk row).isPlain = true)
    (hlast : (s.format.slotId chunk (s.fill chunk - 1)).isPlain = true) :
    Matches (s.evictRow partition chunk row) (s'.evictRow partition chunk row) := by
  unfold RowStore.evictRow
  simp only [h.fill, h.format, h.cell?]
  by_cases heq : row = s.fill chunk - 1
  · simp only [heq, if_true]
    exact ⟨rfl, h.giveUpLast hroom hroom' hlast⟩
  · simp only [heq, if_false]
    split
    · exact ⟨rfl, (h.setCell chunk row none).pushFree hroom hroom' hrow⟩
    · rename_i moved _
      have hmove : Alike (s.moveInto chunk row moved) (s'.moveInto chunk row moved) := by
        unfold moveInto
        rw [h.format]
        exact (h.setCell chunk row (some moved)).relocate moved.item _
      exact ⟨rfl, hmove.giveUpLast hroom hroom' hlast⟩

end removal

/-- A memory that serves free ids leaves no free stack without room. -/
theorem Sound.findsRoom (h : Sound s reserved) (hserves : s.memory.Serves .freeIds) :
    s.FindsRoom partition := by
  rintro e ⟨p, hp, hfull, hrefused⟩
  have hcap := h.grown_le hp hfull
  have hbytes : max (p.freeIds.capacity * 2) s.format.rowsPerChunk * WordWidth.bytes .bits32 <
      Memory.ampleLimit := by
    show _ * 4 < 1 <<< 47
    omega
  rw [BoundedStack.allocate, Buffer.reserve_served hserves hbytes] at hrefused
  cases hrefused

/-- A removal is refused by both or by none, since room is found in both. -/
theorem Alike.evict (h : Alike s s') (hs : Sound s reserved) (hs' : Sound s' reserved)
    (hserves : s.memory.Serves .freeIds) {α : Type}
    (partition : Nat) (id : SlotId) (accept : RowView V → Except StoreError α) :
    Matches (s.evict partition id accept) (s'.evict partition id accept) := by
  unfold RowStore.evict
  rw [h.locate]
  split
  · exact ⟨rfl, h⟩
  · rename_i chunk row hlocate
    rw [h.cell?]
    split
    · exact ⟨rfl, h⟩
    · cases hp : s.partitions[partition]? with
      | none =>
        rw [RowStore.locate, hp] at hlocate
        cases hlocate
      | some p =>
        obtain ⟨p', hp', -⟩ := h.partition_some hp
        have hserves' : s'.memory.Serves .freeIds := by rwa [h.memory]
        obtain ⟨s₁, hmake⟩ := (hs.findsRoom hserves).makeRoom hlocate
        obtain ⟨s₁', hmake'⟩ :=
          (hs'.findsRoom hserves').makeRoom ((h.locate partition id).trans hlocate)
        obtain ⟨hwider, hsound, hroom⟩ := makeRoom_ok hs hmake
        obtain ⟨hwider', -, hroom'⟩ := makeRoom_ok hs' hmake'
        have halike : Alike s₁ s₁' := (hwider.symm.trans h).trans hwider'
        rw [hmake, hmake']
        simp only [halike.view]
        split
        · exact ⟨rfl, halike⟩
        · obtain ⟨-, hc, hrow⟩ := hs.locate_eq_some_iff.mp hlocate
          have hlt : chunk < s₁.chunkCount := by
            rw [hwider.chunkCount]
            exact hs.chain_lt partition chunk hc
          have hrow₁ : row < s₁.fill chunk := by
            rw [hwider.fill]
            exact hrow
          have hlast₁ : s₁.fill chunk - 1 < s₁.fill chunk := by omega
          have hplain : ∀ r, r < s₁.fill chunk → (s₁.format.slotId chunk r).isPlain = true :=
            fun r hr => hsound.slotId_isPlain hlt (hsound.lt_rowsPerChunk hr)
          obtain ⟨id', s₂, s₂', hevict, hevict', halike₂⟩ :=
            (halike.evictRow hroom hroom' (hplain row hrow₁) (hplain _ hlast₁)).split
          rw [hevict, hevict']
          exact ⟨rfl, halike₂⟩

/-! ### Calls -/

/-- Each removal among the calls finds a memory that serves free ids. -/
def RoomyFor (m : Memory) : List (Call T V) → Prop
  | [] => True
  | .evict .. :: rest => m.Serves .freeIds ∧ RoomyFor m rest
  | .memory m' :: rest => RoomyFor m' rest
  | _ :: rest => RoomyFor m rest

variable [ComponentType T]

theorem RoomyFor.next {call : Call T V} {rest : List (Call T V)}
    (h : RoomyFor s.memory (call :: rest)) : RoomyFor (s.perform call).2.memory rest := by
  rw [perform_memory]
  cases call
  case evict => exact h.2
  all_goals exact h

/-- A call other than a removal is answered alike in any case. -/
theorem Alike.perform (h : Alike s s') (hs : Sound s reserved) (hs' : Sound s' reserved)
    {call : Call T V} {rest : List (Call T V)} (hroomy : RoomyFor s.memory (call :: rest)) :
    Matches (s.perform call) (s'.perform call) := by
  cases call with
  | newPartition layout => exact (h.newPartition layout).answering _
  | newItem => exact ⟨by simp only [RowStore.perform, RowStore.newItem, h.ids], h.newItem⟩
  | setId item id => exact ⟨rfl, h.setId item id⟩
  | issue partition => exact (h.issue partition).answering _
  | occupy partition id item values => exact (h.occupy partition id item values).answering _
  | insert partition item values => exact (h.insert partition item values).answering _
  | evict partition id accept =>
    exact (h.evict hs hs' hroomy.1 partition id accept).answering _
  | row partition id => exact ⟨by simp only [RowStore.perform, h.row], h⟩
  | rewrite partition id f => exact (h.rewrite partition id f).answering _
  | memory m => exact ⟨rfl, h.withMemory m⟩

end RowStore

namespace Pool

variable {T V : Type} [ComponentType T]

/-- Stores that are alike answer an orderly run of calls alike, as long as removals find room. -/
theorem Orderly.answers {pool : Pool T V} {store : RowStore T V} (halike : pool.store.Alike store)
    (h : pool.store.Sound pool.reserved) (h' : store.Sound pool.reserved)
    {calls : List (RowStore.Call T V)} (horderly : pool.Orderly calls)
    (hroomy : RowStore.RoomyFor pool.store.memory calls) :
    store.answers calls = pool.store.answers calls := by
  induction calls generalizing pool store with
  | nil => rfl
  | cons call rest ih =>
    obtain ⟨hallows, hrest⟩ := horderly
    have hmatch := halike.perform h h' hroomy
    have hallows' : Allows ⟨store, pool.reserved⟩ call := by
      cases call <;> exact hallows
    have hsound : (store.perform call).2.Sound (pool.next call).reserved := by
      have hsound := (next_kept h' hallows').sound
      unfold next at hsound ⊢
      rwa [hmatch.answer] at hsound
    have hlater := ih hmatch.store (next_kept h hallows).sound hsound hrest hroomy.next
    unfold RowStore.answers
    rw [hmatch.answer]
    exact congrArg _ hlater

end Pool

end ArchetypeStore

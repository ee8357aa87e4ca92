import ArchetypeStore.Proofs.RowStore.Registry
import ArchetypeStore.Proofs.Sample

/-! # Partitions are isolated

  Chunk numbers come from one counter while the chains of the partitions grow in any order.
  Whatever is called, and whatever is refused on the way, each chunk belongs to one chain,
  chains ascend, and the links of a chunk name its neighbours in the chain. So the search
  in a chain finds the chunks of the partition and no others, and an id of another
  partition leads nowhere.
-/

namespace ArchetypeStore.RowStore

variable {T V : Type} {s s' : RowStore T V} {partition : Nat}

/-! ### The invariant -/

/-- The links of each chunk name its neighbours in its chain, and free ids name chunks of
their partition. -/
structure Wired (s : RowStore T V) : Prop extends Chained s where
  linked : ∀ q i chunk, (s.chain q)[i]? = some chunk → ∃ layout, s.layout? q = some layout ∧
    s.bare? chunk =
      some ⟨layout, #[], if i = 0 then none else (s.chain q)[i - 1]?, (s.chain q)[i + 1]?⟩
  free_owned : ∀ q, ∀ id ∈ s.freeList q, s.format.chunkOf id ∈ s.chain q

theorem empty_wired {format : IdFormat} (h : format.Valid) :
    Wired (.empty format : RowStore T V) := by
  refine ⟨(empty_sound h).toChained, ?_, ?_⟩
  · intro q i chunk hi
    cases hi
  · intro q id hid
    cases hid

theorem Wired.quiet (h : Wired s) (hquiet : Quiet s s') : Wired s' := by
  refine ⟨hquiet.toSameChains.chained h.toChained (hquiet.fill_le h.fill_le), ?_, ?_⟩
  · simpa only [hquiet.chain, hquiet.layout, hquiet.bare] using h.linked
  · intro q id hid
    rw [hquiet.format, hquiet.chain]
    rcases hquiet.free q id hid with hold | hown
    · exact h.free_owned q id hold
    · exact hown

/-- A chunk stands in its chain once. -/
theorem Chained.position_unique (h : Chained s) {q i j chunk : Nat}
    (hi : (s.chain q)[i]? = some chunk) (hj : (s.chain q)[j]? = some chunk) : i = j := by
  have hnodup : (s.chain q).Nodup := (h.ascending q).imp Nat.ne_of_lt
  exact (List.getElem?_inj (List.getElem?_eq_some_iff.mp hi).1 hnodup).mp (hi.trans hj.symm)

theorem current?_eq_getElem? (s : RowStore T V) (partition : Nat) :
    s.current? partition = (s.chain partition)[(s.chain partition).length - 1]? := by
  rw [current?_eq_getLast?, List.getLast?_eq_getElem?]

/-- Of the old chunks of the chain, only the last one gets a link to the new chunk. -/
theorem Grown.linked_old {columns : List T} (hgrown : Grown s s' partition columns)
    (h : Wired s) {i chunk : Nat} (hi : (s.chain partition)[i]? = some chunk) :
    s'.bare? chunk =
      some ⟨columns, #[], if i = 0 then none else (s.chain partition ++ [s.chunkCount])[i - 1]?,
        (s.chain partition ++ [s.chunkCount])[i + 1]?⟩ := by
  have hlt : i < (s.chain partition).length := (List.getElem?_eq_some_iff.mp hi).1
  obtain ⟨columns', hcolumns, hbare⟩ := h.linked partition i chunk hi
  have hsame : columns' = columns := by
    rcases hgrown.layout_before with hnone | hsome
    · rw [hcolumns] at hnone
      cases hnone
    · rw [hcolumns] at hsome
      exact Option.some.inj hsome
  have hnew := h.chain_lt partition chunk (List.mem_of_getElem? hi)
  rw [hgrown.bare, if_neg (Nat.ne_of_lt hnew), hbare, hsame, current?_eq_getElem?,
    List.getElem?_append_left (by omega : i - 1 < (s.chain partition).length)]
  by_cases hend : i + 1 = (s.chain partition).length
  · have hlast : (s.chain partition).length - 1 = i := by omega
    rw [hlast, if_pos hi, hend, List.getElem?_concat_length,
      List.getElem?_eq_none (Nat.le_refl _)]
    rfl
  · have hnot : (s.chain partition)[(s.chain partition).length - 1]? ≠ some chunk := by
      intro hlast
      have := h.position_unique hi hlast
      omega
    rw [if_neg hnot, List.getElem?_append_left (by omega)]

/-- The new chunk is linked behind the one that was last. -/
theorem Grown.linked_new {columns : List T} (hgrown : Grown s s' partition columns) :
    s'.bare? s.chunkCount =
      some ⟨columns, #[], if (s.chain partition).length = 0 then none else
        (s.chain partition ++ [s.chunkCount])[(s.chain partition).length - 1]?, none⟩ := by
  rw [hgrown.bare, if_pos rfl, current?_eq_getElem?]
  by_cases hempty : (s.chain partition).length = 0
  · rw [if_pos hempty, List.getElem?_eq_none (by omega)]
  · rw [if_neg hempty, List.getElem?_append_left (by omega)]

/-- The links of a chain of another partition stay. -/
theorem Grown.linked_other {columns : List T} (hgrown : Grown s s' partition columns)
    (h : Wired s) {q chunk : Nat} (hq : q ≠ partition) (hc : chunk ∈ s.chain q) :
    s'.bare? chunk = s.bare? chunk := by
  have hnew := h.chain_lt q chunk hc
  have hnot : s.current? partition ≠ some chunk := fun hcurrent =>
    hq (h.chain_disjoint q partition chunk hc (mem_chain_of_current? hcurrent))
  rw [hgrown.bare, if_neg (Nat.ne_of_lt hnew), if_neg hnot]

theorem Wired.grow (h : Wired s) {columns : List T} (hadds : AddsChunk s s')
    (hgrown : Grown s s' partition columns) (hfree : ∀ q, s'.freeList q = s.freeList q) :
    Wired s' := by
  have hlayout : ∀ q, (s'.layout? q).isSome → q = partition ∨ (s.layout? q).isSome := by
    intro q hq
    rw [hgrown.layout] at hq
    split at hq
    · exact .inl ‹_›
    · exact .inr hq
  refine ⟨h.toChained.addChunk hadds.spare hadds.format hadds.chunkCount hlayout hgrown.chain
    hadds.fill, ?_, ?_⟩
  · intro q i chunk hi
    by_cases hq : q = partition
    · subst hq
      have hchain : s'.chain q = s.chain q ++ [s.chunkCount] := by rw [hgrown.chain, if_pos rfl]
      rw [hchain] at hi ⊢
      refine ⟨columns, by rw [hgrown.layout, if_pos rfl], ?_⟩
      rcases Nat.lt_or_ge i (s.chain q).length with hlt | hge
      · rw [List.getElem?_append_left hlt] at hi
        exact hgrown.linked_old h hi
      · -- Behind the old chunks there is the new one only.
        have hbound := (List.getElem?_eq_some_iff.mp hi).1
        rw [List.length_append, List.length_singleton] at hbound
        have hlen : i = (s.chain q).length := by omega
        subst hlen
        rw [List.getElem?_concat_length] at hi
        cases hi
        have hend : (s.chain q ++ [s.chunkCount])[(s.chain q).length + 1]? = none :=
          List.getElem?_eq_none (by simp)
        rw [hend]
        exact hgrown.linked_new
    · have hchain : s'.chain q = s.chain q := by rw [hgrown.chain, if_neg hq]
      rw [hchain] at hi ⊢
      rw [hgrown.layout, if_neg hq, hgrown.linked_other h hq (List.mem_of_getElem? hi)]
      exact h.linked q i chunk hi
  · intro q id hid
    rw [hfree] at hid
    have hown := h.free_owned q id hid
    rw [hgrown.format, hgrown.chain]
    split
    · exact List.mem_append_left _ hown
    · exact hown

/-! ### How a call may end -/

/-- A call leaves the registry as it is, or it succeeds and has made one chunk. -/
structure Settles {β : Type} (s : RowStore T V) (outcome : Except StoreError β × RowStore T V) :
    Prop where
  wired : Wired outcome.2
  registry : SameRegistry s outcome.2 ∨
    (∃ answer, outcome.1 = .ok answer) ∧ ∃ q columns, Grown s outcome.2 q columns

theorem Settles.of_quiet {β : Type} {outcome : Except StoreError β × RowStore T V} (h : Wired s)
    (hquiet : Quiet s outcome.2) : Settles s outcome :=
  ⟨h.quiet hquiet, .inl hquiet.toSameRegistry⟩

theorem Settles.answering {β : Type} {outcome : Except StoreError β × RowStore T V}
    (h : Settles s outcome) (f : β → Answer V) : Settles s (answering f outcome) := by
  refine ⟨h.wired, ?_⟩
  rcases h.registry with hsame | ⟨⟨answer, hok⟩, hgrown⟩
  · exact .inl hsame
  · exact .inr ⟨⟨f answer, by rw [RowStore.answering, hok]; rfl⟩, hgrown⟩

section growth

variable [ComponentType T]

theorem newPartition_settles (h : Wired s) (layout : List T) :
    Settles s (s.newPartition layout) := by
  cases hnew : s.newPartition layout with
  | mk answer s' =>
    cases answer with
    | error e =>
      obtain ⟨rfl, -⟩ := newPartition_error hnew
      exact .of_quiet h (.refl _)
    | ok partition =>
      obtain ⟨-, -, hadds, hpartitions⟩ := newPartition_ok hnew
      have hgrown := newPartition_grown hnew
      refine ⟨h.grow hadds hgrown fun q => ?_, .inr ⟨⟨partition, rfl⟩, partition, layout, hgrown⟩⟩
      -- A new partition has no free ids.
      unfold freeList
      rw [hpartitions, Array.getElem?_push]
      split
      · rename_i heq
        rw [heq, Array.getElem?_eq_none (Nat.le_refl _)]
        rfl
      · rfl

theorem Wired.extend (h : Wired s) (hextend : s.extend partition = (.ok (), s')) : Wired s' := by
  obtain ⟨hadds, -, -, hfree, -⟩ := extend_adds hextend
  obtain ⟨columns, hgrown⟩ := extend_grown hextend
  exact h.grow hadds hgrown hfree

/-- With no free ids, what is issued after an extension is the first row of the new chunk. -/
theorem issueSpare_extended (hextend : s.extend partition = (.ok (), s'))
    (hfree : s.freeList partition = []) :
    s'.issueSpare partition =
      (some (s.format.slotId s.chunkCount 0), s'.modifyRows s.chunkCount (·.push none)) := by
  obtain ⟨hadds, -, hchain, hlists, -⟩ := extend_adds hextend
  have hcurrent : s'.current? partition = some s.chunkCount := by
    rw [current?_eq_getLast?, hchain, if_pos rfl, List.getLast?_concat]
  have hempty : s'.fill s.chunkCount = 0 := by
    rw [hadds.fill]
    exact fill_of_chunkCount_le (Nat.le_refl _)
  cases hp : s'.partitions[partition]? with
  | none =>
    rw [current?, hp] at hcurrent
    cases hcurrent
  | some p =>
    have hnone : p.freeIds.toList = [] := by rw [← freeList_eq hp, hlists, hfree]
    rw [issueSpare_of_no_free hp hnone, claimNext_eq, hcurrent]
    simp only
    rw [hempty, hadds.format, if_pos (IdFormat.rowsPerChunk_pos s.format)]

/-- When an issue makes a chunk, the id is that of the first row of the chunk. -/
theorem Wired.issue_cases (h : Wired s) {answer : Except StoreError SlotId}
    (hissue : s.issue partition = (answer, s')) :
    Quiet s s' ∨ ∃ s₁, s.extend partition = (.ok (), s₁) ∧
      answer = .ok (s.format.slotId s.chunkCount 0) ∧
        s' = s₁.modifyRows s.chunkCount (·.push none) := by
  unfold issue at hissue
  split at hissue
  · rename_i id s₁ hspare
    cases hissue
    left
    have := issueSpare_quiet s partition
    rwa [hspare] at this
  · rename_i s₁ hnone
    obtain ⟨rfl, hfree, -⟩ := h.toChained.issueSpare_none (h.free_owned partition) hnone
    split at hissue
    · rename_i e s₂ hextend
      cases hissue
      rw [extend_refused hextend]
      exact .inl (.refl _)
    · rename_i s₂ hextend
      rw [issueSpare_extended hextend hfree] at hissue
      cases hissue
      exact .inr ⟨s₂, hextend, rfl, rfl⟩

/-- Claiming the first row of a chunk that was just made leaves the registry alone. -/
theorem claimFirst_quiet (hextend : s.extend partition = (.ok (), s')) :
    Quiet s' (s'.modifyRows s.chunkCount (·.push none)) := by
  obtain ⟨hadds, -⟩ := extend_adds hextend
  have hempty : s'.fill s.chunkCount = 0 := by
    rw [hadds.fill]
    exact fill_of_chunkCount_le (Nat.le_refl _)
  refine .modifyRows s' s.chunkCount fun _ => ?_
  rw [Array.size_push, ← fill_eq, hempty]
  exact IdFormat.rowsPerChunk_pos _

theorem issue_settles (h : Wired s) (partition : Nat) : Settles s (s.issue partition) := by
  cases hissue : s.issue partition with
  | mk answer s' =>
    rcases h.issue_cases hissue with hquiet | ⟨s₁, hextend, rfl, rfl⟩
    · exact .of_quiet h hquiet
    · obtain ⟨columns, hgrown⟩ := extend_grown hextend
      have hquiet := claimFirst_quiet hextend
      have hsame : SameRegistry s s := (Quiet.refl s).toSameRegistry
      exact ⟨(h.extend hextend).quiet hquiet, .inr ⟨⟨_, rfl⟩, partition, columns,
        hgrown.of_same hsame hquiet.toSameRegistry⟩⟩

/-- What an insertion does after an id was issued leaves the registry alone. -/
theorem insert_quiet {id : SlotId} (hissue : s.issue partition = (.ok id, s')) (item : Nat)
    (values : List V) : Quiet s' (s.insert partition item values).2 := by
  unfold insert
  rw [hissue]
  simp only
  split
  · exact .refl s'
  · rename_i chunk row _
    have hwritten : Quiet s' ((s'.setId item id).occupyRow chunk row item values).2 :=
      (Quiet.setId s' item id).trans (occupyRow_quiet ..)
    split
    · rename_i hoccupy
      rwa [hoccupy] at hwritten
    · rename_i hoccupy
      rwa [hoccupy] at hwritten

/-- An insertion that made a chunk is not refused: the first row of the chunk is empty. -/
theorem insert_extended (h : Wired s) {s₁ : RowStore T V}
    (hextend : s.extend partition = (.ok (), s₁))
    (hissue : s.issue partition = (.ok (s.format.slotId s.chunkCount 0),
      s₁.modifyRows s.chunkCount (·.push none))) (item : Nat) (values : List V) :
    (s.insert partition item values).1 = .ok (s.format.slotId s.chunkCount 0) := by
  obtain ⟨hadds, -, hchain, -⟩ := extend_adds hextend
  have hquiet := claimFirst_quiet hextend
  have hwired := (h.extend hextend).quiet hquiet
  have hnew : s.chunkCount < s₁.chunkCount := by
    rw [hadds.chunkCount]
    exact Nat.lt_succ_self _
  have hlocate : (s₁.modifyRows s.chunkCount (·.push none)).locate partition
      (s.format.slotId s.chunkCount 0) = some (s.chunkCount, 0) := by
    rw [← hadds.format]
    refine hwired.locate_slotId ?_ ?_
    · rw [hquiet.chain, hchain, if_pos rfl]
      exact List.mem_append_right _ (List.mem_singleton_self _)
    · rw [fill_push s₁ hnew, if_pos rfl]
      exact Nat.succ_pos _
  have hempty : (s₁.modifyRows s.chunkCount (·.push none)).cell? s.chunkCount 0 = none := by
    rw [cell?_push s₁ hnew, hadds.cell?]
    exact cell?_of_fill_le (Nat.le_of_eq (fill_of_chunkCount_le (Nat.le_refl _)))
  simp only [insert, hissue, hlocate, occupyRow, cell?_setId, hempty]

theorem insert_settles (h : Wired s) (partition item : Nat) (values : List V) :
    Settles s (s.insert partition item values) := by
  have hissues := issue_settles h partition
  cases hissue : s.issue partition with
  | mk answer s₁ =>
    rw [hissue] at hissues
    cases answer with
    | error e =>
      have hinsert : s.insert partition item values = (.error e, s₁) := by rw [insert, hissue]
      rw [hinsert]
      exact ⟨hissues.wired, hissues.registry⟩
    | ok id =>
      have hquiet := insert_quiet hissue item values
      refine ⟨hissues.wired.quiet hquiet, ?_⟩
      rcases hissues.registry with hsame | ⟨-, q, columns, hgrown⟩
      · exact .inl (hsame.trans hquiet.toSameRegistry)
      · right
        have hsame : SameRegistry s s := (Quiet.refl s).toSameRegistry
        refine ⟨⟨id, ?_⟩, q, columns, hgrown.of_same hsame hquiet.toSameRegistry⟩
        rcases h.issue_cases hissue with hstill | ⟨s₂, hextend, hid, rfl⟩
        · -- A store with one more chunk is not the same.
          have hcount := hgrown.chunkCount
          rw [hstill.chunkCount] at hcount
          omega
        · cases hid
          exact insert_extended h hextend hissue item values

theorem perform_settles (h : Wired s) (call : Call T V) : Settles s (s.perform call) := by
  cases call with
  | newPartition layout => exact (newPartition_settles h layout).answering _
  | newItem => exact .of_quiet h (.newItem s)
  | setId item id => exact .of_quiet h (.setId s item id)
  | issue partition => exact (issue_settles h partition).answering _
  | occupy partition id item values => exact .of_quiet h (occupy_quiet s partition id item values)
  | insert partition item values => exact (insert_settles h partition item values).answering _
  | evict partition id accept => exact .of_quiet h (evict_quiet h.toChained partition id accept)
  | row partition id => exact .of_quiet h (.refl s)
  | rewrite partition id f => exact .of_quiet h (rewrite_quiet s partition id f)
  | memory m => exact .of_quiet h (.withMemory s m)

end growth

/-! ### Isolation -/

section isolation

variable [ComponentType T]

/-- What holds of the chunks and partitions of a store, and of its next call. -/
structure Isolated (s : RowStore T V) : Prop where
  chunkCount_le : s.chunkCount ≤ s.format.maxChunks
  /-- The numbers in chains are those of the chunks that were made. -/
  numbers : ∀ chunk, chunk < s.chunkCount ↔ ∃ q, chunk ∈ s.chain q
  one_owner : ∀ chunk p q, chunk ∈ s.chain p → chunk ∈ s.chain q → p = q
  ascending : ∀ q, (s.chain q).Pairwise (· < ·)
  /-- A chunk has the columns of its partition and is linked to its neighbours in the chain. -/
  linked : ∀ q i chunk, (s.chain q)[i]? = some chunk → ∃ c, s.chunks[chunk]? = some c ∧
    s.layout? q = some c.layout ∧
      c.previous = (if i = 0 then none else (s.chain q)[i - 1]?) ∧ c.next = (s.chain q)[i + 1]?
  /-- The search in a chain finds each chunk of the chain at its place, and no others. -/
  search : ∀ q chunk i, (s.partitions[q]?.bind (·.position? chunk)) = some i ↔
    (s.chain q)[i]? = some chunk
  /-- An id of a chunk of another partition, or of none, is refused and changes nothing. -/
  foreign : ∀ q id, s.format.chunkOf id ∉ s.chain q →
    s.row q id = .error .entityNotFound ∧
    (∀ f, s.rewrite q id f = (.error .entityNotFound, s)) ∧
    (∀ item values, s.occupy q id item values = (.error .entityNotFound, s)) ∧
    (∀ (α : Type) (accept : RowView V → Except StoreError α),
      s.evict q id accept = (.error .entityNotFound, s)) ∧
    s.release q id = (.error .entityNotFound, s)
  /-- Only a call that succeeds makes a chunk, and then one, with the next number. -/
  next : ∀ call, SameRegistry s (s.perform call).2 ∨
    (∃ answer, (s.perform call).1 = .ok answer) ∧ ∃ q columns, Grown s (s.perform call).2 q columns

omit [ComponentType T] in
theorem Chained.position?_eq_some_iff (h : Chained s) {q chunk i : Nat} :
    (s.partitions[q]?.bind (·.position? chunk)) = some i ↔ (s.chain q)[i]? = some chunk := by
  cases hp : s.partitions[q]? with
  | none => simp [chain_of_none hp]
  | some p =>
    have hsorted : Ascending p.chain := by
      have := h.ascending q
      rwa [chain_eq hp] at this
    rw [Option.bind_some, chain_eq hp, Array.getElem?_toList]
    constructor
    · exact bisect_sound p.chain chunk 0 p.chain.size
    · intro hi
      have hlt := (Array.getElem?_eq_some_iff.mp hi).1
      exact bisect_complete hsorted chunk 0 _ (Nat.le_refl _) (Nat.zero_le i) hlt hi

omit [ComponentType T] in
theorem Chained.locate_of_foreign (h : Chained s) {q : Nat} {id : SlotId}
    (hforeign : s.format.chunkOf id ∉ s.chain q) : s.locate q id = none := by
  cases hlocate : s.locate q id with
  | none => rfl
  | some place =>
    obtain ⟨rfl, hc, -⟩ := h.locate_eq_some_iff.mp hlocate
    exact absurd hc hforeign

theorem Wired.isolated (h : Wired s) : s.Isolated := by
  refine ⟨h.chunkCount_le, fun chunk => ⟨h.chunk_owned chunk, fun ⟨q, hq⟩ => h.chain_lt q _ hq⟩,
    fun chunk p q => h.chain_disjoint p q chunk, h.ascending, ?_,
    fun q chunk i => h.position?_eq_some_iff, ?_, fun call => (perform_settles h call).registry⟩
  · intro q i chunk hi
    obtain ⟨columns, hcolumns, hbare⟩ := h.linked q i chunk hi
    obtain ⟨c, hc, heq⟩ := Option.map_eq_some_iff.mp hbare
    have hlayout : c.layout = columns := congrArg Chunk.layout heq
    exact ⟨c, hc, by rw [hcolumns, hlayout], congrArg Chunk.previous heq,
      congrArg Chunk.next heq⟩
  · intro q id hid
    have hlocate := h.toChained.locate_of_foreign hid
    have hrow : s.row q id = .error .entityNotFound := by rw [row, hlocate]
    have hevict : ∀ (α : Type) (accept : RowView V → Except StoreError α),
        s.evict q id accept = (.error .entityNotFound, s) := by
      intro α accept
      rw [evict, hlocate]
    refine ⟨hrow, fun f => ?_, fun item values => occupy_of_not_found hlocate item values, hevict,
      hevict Unit fun _ => .ok ()⟩
    rw [rewrite, hrow]

theorem after_wired {rowBits : Nat} {limit : Option Nat} {format : IdFormat}
    (hformat : IdFormat.create rowBits limit = .ok format) (calls : List (Call T V)) :
    Wired ((RowStore.empty format : RowStore T V).after calls) := by
  have hstep : ∀ s : RowStore T V, Wired s → ∀ call, Wired (s.perform call).2 :=
    fun s h call => (perform_settles h call).wired
  exact after_preserves hstep (empty_wired (IdFormat.create_valid hformat)) calls

/-- Partitions are isolated, whatever was called on any of them. -/
theorem after_isolated {rowBits : Nat} {limit : Option Nat} {format : IdFormat}
    (hformat : IdFormat.create rowBits limit = .ok format) (calls : List (Call T V)) :
    ((RowStore.empty format : RowStore T V).after calls).Isolated :=
  (after_wired hformat calls).isolated

/-- Two partitions, the first of which grows when its four rows are taken. Then a third
partition is refused, and in the end so is the growth of the second. -/
def crossing : List (Call Sample Nat) :=
  [.newPartition [.position], .newPartition [.velocity], .issue 0, .issue 1, .issue 0, .issue 0,
    .issue 0, .issue 0, .newPartition [], .issue 1, .issue 1, .issue 1, .issue 1]

theorem after_isolated_crossing :
    IdFormat.create 2 (some 3) = .ok ⟨2, 3⟩ ∧
      ((RowStore.empty ⟨2, 3⟩).after crossing).chain 0 = [0, 2] ∧
      ((RowStore.empty ⟨2, 3⟩).after crossing).chain 1 = [1] ∧
      ((RowStore.empty ⟨2, 3⟩).answers crossing)[8]? =
        some (.error (.chunkCapacityExhausted 3)) ∧
      ((RowStore.empty ⟨2, 3⟩).answers crossing)[12]? =
        some (.error (.chunkCapacityExhausted 3)) ∧
      ((RowStore.empty ⟨2, 3⟩).after crossing).Isolated := by
  have hformat : IdFormat.create 2 (some 3) = .ok ⟨2, 3⟩ := rfl
  exact ⟨hformat, rfl, rfl, rfl, rfl, after_isolated hformat crossing⟩

end isolation

end ArchetypeStore.RowStore

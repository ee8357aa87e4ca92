import ArchetypeStore.Proofs.RowStore.Regular

/-! # Rows within bounds

  Operations on rows rely on bounds that they do not test: that the numbers packed into an
  id have a place there, that a row is one of its chunk, that a free stack takes an id back.
  Where one is broken, an operation would go astray or give an answer that says something
  else. So the operations are written down once more, each with the bounds that it relies
  on at the place where it does, and the first one that is broken ends the run.

  As long as ids are registered only while they are out and each item is stored with a value
  for each column, no bound is broken, and what is left are the operations themselves.
-/

namespace ArchetypeStore

/-- A bound that an operation relies on. -/
inductive Breach where
  /-- An id is packed from a chunk number that is too great. -/
  | chunkNumber
  /-- A row is reached, or packed into an id, that no chunk has. -/
  | rowNumber
  /-- A column is reached that the chunk does not have, or is left without a value. -/
  | column
  /-- A partition has no current chunk. -/
  | noCurrent
  /-- A chunk has more claimed rows than rows. -/
  | overfull
  /-- A chunk without claimed rows gives one up. -/
  | underflow
  /-- A free stack has more ids than slots. -/
  | stackSlot
  /-- A free stack refuses an id. -/
  | refusedPush
  /-- An id on a free stack is of a chunk that is not in the chain. -/
  | foreignId
  /-- A chunk that was just made has no row to spare. -/
  | noSpare
  /-- An id that was just issued leads to no row. -/
  | unissued
  /-- The row of an id that was just issued holds an item. -/
  | occupied
  deriving DecidableEq

namespace Breach

/-- Go on only as long as a bound is kept. -/
def require (bound : Prop) [Decidable bound] (b : Breach) : Except Breach Unit :=
  if bound then .ok () else .error b

@[simp] theorem ok_bind {α β : Type} (a : α) (f : α → Except Breach β) :
    (Except.ok a >>= f) = f a := rfl

@[simp] theorem pure_eq {α : Type} (a : α) : (pure a : Except Breach α) = .ok a := rfl

theorem require_bind {α : Type} {bound : Prop} [Decidable bound] (h : bound) (b : Breach)
    (f : Unit → Except Breach α) : (require bound b >>= f) = f () := by
  rw [require, if_pos h, ok_bind]

end Breach

open Breach (require require_bind)

/-! ### Free stacks -/

namespace BoundedStack

variable {α : Type} {marker : α}

/-- A pop reads the slot below the top. -/
def popChecked (s : BoundedStack α marker) : Except Breach (Option α × BoundedStack α marker) := do
  require (s.top ≤ s.capacity) .stackSlot
  return s.pop

/-- Every slot below the top is read. -/
def drainChecked (s : BoundedStack α marker) : Except Breach (List α × BoundedStack α marker) := do
  require (s.top ≤ s.capacity) .stackSlot
  return s.drain

theorem popChecked_eq {s : BoundedStack α marker} (h : s.top ≤ s.capacity) :
    s.popChecked = .ok s.pop := require_bind h _ _

theorem drainChecked_eq {s : BoundedStack α marker} (h : s.top ≤ s.capacity) :
    s.drainChecked = .ok s.drain := require_bind h _ _

variable [DecidableEq α]

/-- A push that has to be accepted. -/
def pushChecked (s : BoundedStack α marker) (value : α) : Except Breach (BoundedStack α marker) :=
  match s.push value with
  | (true, s) => .ok s
  | (false, _) => .error .refusedPush

/-- Pushes that all have to be accepted. -/
def pushAllChecked (s : BoundedStack α marker) : List α → Except Breach (BoundedStack α marker)
  | [] => .ok s
  | value :: rest => do
    let s ← s.pushChecked value
    s.pushAllChecked rest

theorem pushChecked_eq {s : BoundedStack α marker} {value : α} (hvalue : value ≠ marker)
    (hroom : s.top < s.capacity) : s.pushChecked value = .ok (s.push value).2 := by
  simp only [pushChecked, push, if_neg hvalue, if_pos hroom]

theorem pushAllChecked_eq {s : BoundedStack α marker} {values : List α}
    (hvalues : ∀ value ∈ values, value ≠ marker) (hroom : s.top + values.length ≤ s.capacity) :
    s.pushAllChecked values = .ok (s.pushAll values) := by
  induction values generalizing s with
  | nil => rfl
  | cons value rest ih =>
    have hvalue : value ≠ marker := hvalues value List.mem_cons_self
    rw [List.length_cons] at hroom
    have hspare : s.top < s.capacity := by omega
    rw [pushAllChecked, pushChecked_eq hvalue hspare, Breach.ok_bind,
      ih fun v hv => hvalues v (List.mem_cons_of_mem _ hv)]
    · rfl
    · rw [push_capacity, push_top hvalue hspare]
      omega

end BoundedStack

namespace RowStore

variable {T V : Type} {s s' : RowStore T V} {reserved : List SlotId} {partition : Nat}

/-! ### Ids and columns -/

/-- The number of columns of a chunk. -/
def columnCount (s : RowStore T V) (chunk : Nat) : Nat :=
  (s.chunks[chunk]?.map (·.layout.length)).getD 0

/-- Both numbers of an id need a place in it. -/
def slotIdChecked (s : RowStore T V) (chunk row : Nat) : Except Breach SlotId := do
  require (chunk < s.format.maxChunks) .chunkNumber
  require (row < s.format.rowsPerChunk) .rowNumber
  return s.format.slotId chunk row

theorem slotIdChecked_eq (h : Chained s) {chunk row : Nat} (hc : chunk ∈ s.chain partition)
    (hr : row < s.format.rowsPerChunk) :
    s.slotIdChecked chunk row = .ok (s.format.slotId chunk row) := by
  rw [slotIdChecked, require_bind (h.lt_maxChunks (h.chain_lt partition chunk hc)),
    require_bind hr, Breach.pure_eq]

/-- A chunk has the columns of its partition. -/
theorem Wired.columnCount_eq (h : Wired s) (hs : Chained s) {chunk : Nat}
    (hc : chunk ∈ s.chain partition) {layout : List T}
    (hlayout : s.layout? partition = some layout) :
    s.columnCount chunk = layout.length := by
  have hlt : chunk < s.chunks.size := hs.chain_lt partition chunk hc
  have hchunk := Array.getElem?_eq_getElem hlt
  have heq := h.layout_of_chunk hc hchunk
  rw [hlayout] at heq
  rw [columnCount, hchunk, Option.some.inj heq]
  rfl

/-- An item has one value for each column of its chunk. -/
theorem Tabular.length_values (htab : Tabular s) (h : Wired s) (hs : Chained s) {chunk row : Nat}
    (hc : chunk ∈ s.chain partition) {cell : Cell V} (hcell : s.cell? chunk row = some cell) :
    cell.values.length = s.columnCount chunk := by
  cases hlayout : s.layout? partition with
  | none =>
    rw [chain_of_none (Option.map_eq_none_iff.mp hlayout)] at hc
    cases hc
  | some layout =>
    rw [h.columnCount_eq hs hc hlayout]
    exact htab partition layout hlayout chunk hc row cell hcell

/-! ### Issue -/

/-- New rows are claimed in the current chunk. -/
def currentChecked (p : Partition T) : Except Breach Nat :=
  match p.current? with
  | none => .error .noCurrent
  | some chunk => .ok chunk

/-- Claim the next row of the current chunk, if there is room. -/
def claimNextChecked (s : RowStore T V) (partition : Nat) :
    Except Breach (Option SlotId × RowStore T V) :=
  match s.partitions[partition]? with
  | none => .ok (none, s)
  | some p => do
    let chunk ← currentChecked p
    if s.fill chunk < s.format.rowsPerChunk then
      let id ← s.slotIdChecked chunk (s.fill chunk)
      let claimed := s.modifyRows chunk (·.push none)
      require (claimed.fill chunk ≤ s.format.rowsPerChunk) .overfull
      return (some id, claimed)
    else return (none, s)

/-- Issue an id from the free stack, or else from the current chunk. -/
def issueSpareChecked (s : RowStore T V) (partition : Nat) :
    Except Breach (Option SlotId × RowStore T V) :=
  match s.partitions[partition]? with
  | none => .ok (none, s)
  | some p => do
    match ← p.freeIds.popChecked with
    | (none, _) => s.claimNextChecked partition
    | (some id, freeIds) =>
      require (p.owns (s.format.chunkOf id)) .foreignId
      let claimed := (s.setFreeIds partition freeIds).claimUpTo (s.format.chunkOf id)
        (s.format.rowOf id)
      require (claimed.fill (s.format.chunkOf id) ≤ s.format.rowsPerChunk) .overfull
      return (some id, claimed)

/-- A partition that exists has a current chunk. -/
theorem Chained.currentChecked_eq (h : Chained s) {p : Partition T}
    (hp : s.partitions[partition]? = some p) :
    ∃ chunk, currentChecked p = .ok chunk ∧ p.current? = some chunk ∧
      chunk ∈ s.chain partition := by
  have hne := h.chain_ne_nil partition (by rw [layout?, hp]; rfl)
  cases hcurrent : p.current? with
  | none =>
    have hback := current?_eq_getLast? s partition
    rw [current?_eq hp, show p.chain.back? = none from hcurrent, eq_comm,
      List.getLast?_eq_none_iff] at hback
    exact absurd hback hne
  | some chunk =>
    refine ⟨chunk, by rw [currentChecked, hcurrent], rfl, mem_chain_of_current? ?_⟩
    rw [current?_eq hp]
    exact hcurrent

theorem claimNextChecked_eq (h : Chained s) (partition : Nat) :
    s.claimNextChecked partition = .ok (s.claimNext partition) := by
  unfold claimNextChecked claimNext
  cases hp : s.partitions[partition]? with
  | none => rfl
  | some p =>
    obtain ⟨chunk, hchecked, hcurrent, hc⟩ := h.currentChecked_eq hp
    simp only [hchecked, Breach.ok_bind, Option.bind_some, hcurrent]
    split
    · rename_i hspare
      rw [slotIdChecked_eq h hc hspare, Breach.ok_bind, require_bind]
      · rfl
      · rw [fill_push s (h.chain_lt partition chunk hc), if_pos rfl]
        exact hspare
    · rfl

/-- What lies on a free stack is of the partition, and its row fits into the chunk. -/
theorem issueSpareChecked_eq (h : Sound s reserved) (partition : Nat) :
    s.issueSpareChecked partition = .ok (s.issueSpare partition) := by
  unfold issueSpareChecked issueSpare
  cases hp : s.partitions[partition]? with
  | none => rfl
  | some p =>
    dsimp only
    rw [BoundedStack.popChecked_eq (h.room partition p hp), Breach.ok_bind]
    cases hfree : p.freeIds.toList with
    | nil =>
      rw [BoundedStack.pop_of_toList_nil hfree]
      exact claimNextChecked_eq h.toChained partition
    | cons id rest =>
      have hmem : id ∈ s.freeList partition := by
        rw [freeList_eq hp, hfree]
        exact List.mem_cons_self
      have hc := h.free_owned hmem
      -- Chains ascend, so the search for the chunk finds it.
      have howns : p.owns (s.format.chunkOf id) = true := by
        have hsorted := h.ascending partition
        rw [chain_eq hp] at hsorted hc
        exact (Partition.owns_iff hsorted _).mpr hc
      rw [← Prod.eta p.freeIds.pop, (BoundedStack.pop_of_toList_cons hfree).1]
      dsimp only
      have hfill : ((s.setFreeIds partition p.freeIds.pop.2).claimUpTo (s.format.chunkOf id)
          (s.format.rowOf id)).fill (s.format.chunkOf id) =
            max (s.fill (s.format.chunkOf id)) (s.format.rowOf id + 1) :=
        (fill_claimUpTo (s.setFreeIds partition p.freeIds.pop.2) (h.chain_lt partition _ hc) _
          _).trans (if_pos rfl)
      have hrow : s.format.rowOf id < s.format.rowsPerChunk :=
        Nat.mod_lt _ (IdFormat.rowsPerChunk_pos s.format)
      rw [require_bind howns, if_pos howns, require_bind]
      · rfl
      · rw [hfill]
        exact Nat.max_le.mpr ⟨h.fill_le _, hrow⟩

section issue

variable [ComponentType T]

/-- Give a partition a new current chunk, behind the one that it has. -/
def extendChecked (s : RowStore T V) (partition : Nat) :
    Except Breach (Except StoreError Unit × RowStore T V) :=
  match s.partitions[partition]? with
  | none => .ok (.error .entityNotFound, s)
  | some p => do
    let _ ← currentChecked p
    return s.extend partition

/-- Issue an id; a full partition gets a new chunk, which has a row to spare. -/
def issueChecked (s : RowStore T V) (partition : Nat) :
    Except Breach (Except StoreError SlotId × RowStore T V) := do
  match ← s.issueSpareChecked partition with
  | (some id, s) => return (.ok id, s)
  | (none, s) =>
    match ← s.extendChecked partition with
    | (.error e, s) => return (.error e, s)
    | (.ok (), s) =>
      match ← s.issueSpareChecked partition with
      | (some id, s) => return (.ok id, s)
      | (none, _) => throw .noSpare

theorem extendChecked_eq (h : Chained s) (partition : Nat) :
    s.extendChecked partition = .ok (s.extend partition) := by
  unfold extendChecked
  cases hp : s.partitions[partition]? with
  | none => simp only [extend, hp]
  | some p =>
    obtain ⟨chunk, hchecked, -⟩ := h.currentChecked_eq hp
    simp only [hchecked, Breach.ok_bind, Breach.pure_eq]

theorem issueChecked_eq (h : Sound s reserved) (partition : Nat) :
    s.issueChecked partition = .ok (s.issue partition) := by
  unfold issueChecked issue
  rw [issueSpareChecked_eq h, Breach.ok_bind]
  cases hspare : s.issueSpare partition with
  | mk spare s₁ =>
    cases spare with
    | some id => rfl
    | none =>
      obtain ⟨rfl, hfull⟩ := issueSpare_none h hspare
      dsimp only
      rw [extendChecked_eq h.toChained, Breach.ok_bind]
      cases hextend : s₁.extend partition with
      | mk answer s₂ =>
        cases answer with
        | error e => rfl
        | ok =>
          obtain ⟨hsound, hadds, -, hchain, -⟩ := extend_ok h hfull hextend
          dsimp only
          rw [issueSpareChecked_eq hsound, Breach.ok_bind]
          cases hagain : s₂.issueSpare partition with
          | mk spare s₃ =>
            cases spare with
            | some id => rfl
            | none =>
              -- The new chunk is current and empty.
              have hcurrent : s₂.current? partition = some s₁.chunkCount := by
                rw [current?_eq_getLast?, hchain, if_pos rfl, List.getLast?_concat]
              have hempty : s₂.fill s₁.chunkCount = 0 := by
                rw [hadds.fill]
                exact fill_of_chunkCount_le (Nat.le_refl _)
              exact (issueSpare_of_extended hsound hcurrent hempty hagain).elim

end issue

/-! ### Registration -/

/-- A row that an id leads to is one of a chunk with a place in ids. -/
theorem Chained.of_locate (h : Chained s) {id : SlotId} {chunk row : Nat}
    (hlocate : s.locate partition id = some (chunk, row)) :
    chunk ∈ s.chain partition ∧ row < s.format.rowsPerChunk := by
  obtain ⟨-, hc, hr⟩ := h.locate_eq_some_iff.mp hlocate
  exact ⟨hc, h.lt_rowsPerChunk hr⟩

/-- Store an item in a row whose id was issued before. An id that is refused because an item
is there is packed anew. -/
def occupyChecked (s : RowStore T V) (partition : Nat) (id : SlotId) (item : Nat)
    (values : List V) : Except Breach (Except StoreError Unit × RowStore T V) :=
  match s.locate partition id with
  | none => .ok (.error .entityNotFound, s)
  | some (chunk, row) => do
    require (row < s.format.rowsPerChunk) .rowNumber
    require (values.length = s.columnCount chunk) .column
    match s.cell? chunk row with
    | none => return (.ok (), (s.setId item id).setCell chunk row (some ⟨item, values⟩))
    | some _ =>
      let taken ← s.slotIdChecked chunk row
      return (.error (.duplicateValue taken.toNat), s.setId item id)

/-- Store an item in a row of its own, which is there and empty. -/
def insertChecked [ComponentType T] (s : RowStore T V) (partition item : Nat) (values : List V) :
    Except Breach (Except StoreError SlotId × RowStore T V) := do
  match ← s.issueChecked partition with
  | (.error e, s) => return (.error e, s)
  | (.ok id, s) =>
    match s.locate partition id with
    | none => throw .unissued
    | some (chunk, row) =>
      require (row < s.format.rowsPerChunk) .rowNumber
      require (values.length = s.columnCount chunk) .column
      match (s.setId item id).occupyRow chunk row item values with
      | (.error _, _) => throw .occupied
      | (.ok (), s) => return (.ok id, s)

/-- Values that fill the columns of a partition fill those of each chunk. -/
theorem Wired.length_of_fills (h : Wired s) (hs : Chained s) {values : List V}
    (hfills : ∀ layout, s.layout? partition = some layout → values.length = layout.length)
    {chunk : Nat} (hc : chunk ∈ s.chain partition) : values.length = s.columnCount chunk := by
  obtain ⟨layout, hlayout⟩ := Regular.exists_layout hc
  rw [h.columnCount_eq hs hc hlayout]
  exact hfills layout hlayout

theorem occupyChecked_eq (h : Chained s) (hwired : Wired s) (id : SlotId) (item : Nat)
    {values : List V}
    (hfills : ∀ layout, s.layout? partition = some layout → values.length = layout.length) :
    s.occupyChecked partition id item values = .ok (s.occupy partition id item values) := by
  unfold occupyChecked occupy
  cases hlocate : s.locate partition id with
  | none => rfl
  | some place =>
    obtain ⟨chunk, row⟩ := place
    obtain ⟨hc, hr⟩ := h.of_locate hlocate
    dsimp only
    rw [require_bind hr, require_bind (hwired.length_of_fills h hfills hc)]
    cases s.cell? chunk row with
    | none => rfl
    | some cell =>
      dsimp only
      rw [slotIdChecked_eq h hc hr, Breach.ok_bind, Breach.pure_eq]

section regular

variable [ComponentType T]

/-- The row of an id that was just issued is there and empty. -/
theorem insertChecked_eq (h : Regular s reserved) (item : Nat) {values : List V}
    (hfills : ∀ layout, s.layout? partition = some layout → values.length = layout.length) :
    s.insertChecked partition item values = .ok (s.insert partition item values) := by
  unfold insertChecked insert
  rw [issueChecked_eq h.toSound, Breach.ok_bind]
  cases hissue : s.issue partition with
  | mk answer s₁ =>
    cases answer with
    | error e => rfl
    | ok id =>
      obtain ⟨chunk, row, rfl, hissued, -⟩ := issue_ok h.toSound hissue
      obtain ⟨h₁, hretains⟩ := h.issue_ok hissue
      have hempty : s₁.cell? chunk row = none := (hissued.cell chunk row).trans hissued.empty
      have hlocate : s₁.locate partition (s.format.slotId chunk row) = some (chunk, row) := by
        rw [← hretains.format]
        exact h₁.locate_slotId hissued.mem_chain hissued.lt_fill
      obtain ⟨hc, hr⟩ := h₁.toChained.of_locate hlocate
      have hvalues : values.length = s₁.columnCount chunk := by
        refine h₁.toWired.length_of_fills h₁.toChained (fun layout hlayout => ?_) hc
        rw [hissued.steady.layout] at hlayout
        exact hfills layout hlayout
      have hrow : (s₁.setId item (s.format.slotId chunk row)).cell? chunk row = none := hempty
      dsimp only
      rw [hlocate]
      dsimp only
      rw [require_bind hr, require_bind hvalues, occupyRow, hrow]
      rfl

/-! ### Reading and rewriting -/

omit [ComponentType T] in
/-- The row of an id, which is packed anew. -/
def rowChecked (s : RowStore T V) (partition : Nat) (id : SlotId) :
    Except Breach (Except StoreError (RowView V)) :=
  match s.locate partition id with
  | none => .ok (.error .entityNotFound)
  | some (chunk, row) => do
    let id ← s.slotIdChecked chunk row
    return .ok ⟨id, chunk, row, s.cell? chunk row⟩

omit [ComponentType T] in
/-- Change the values in the row of an id, column for column. -/
def rewriteChecked (s : RowStore T V) (partition : Nat) (id : SlotId) (f : List V → List V) :
    Except Breach (Except StoreError (RowView V) × RowStore T V) := do
  match ← s.rowChecked partition id with
  | .error e => return (.error e, s)
  | .ok v =>
    match v.cell with
    | none => return (.ok v, s)
    | some cell =>
      require ((f cell.values).length = s.columnCount v.chunk) .column
      return (.ok v, s.setCell v.chunk v.row (some ⟨cell.item, f cell.values⟩))

omit [ComponentType T] in
theorem rowChecked_eq (h : Chained s) (partition : Nat) (id : SlotId) :
    s.rowChecked partition id = .ok (s.row partition id) := by
  unfold rowChecked row
  cases hlocate : s.locate partition id with
  | none => rfl
  | some place =>
    obtain ⟨hc, hr⟩ := h.of_locate hlocate
    dsimp only
    rw [slotIdChecked_eq h hc hr]
    rfl

theorem rewriteChecked_eq (h : Regular s reserved) (id : SlotId) {f : List V → List V}
    (hf : ∀ values, (f values).length = values.length) :
    s.rewriteChecked partition id f = .ok (s.rewrite partition id f) := by
  unfold rewriteChecked rewrite
  rw [rowChecked_eq h.toChained, Breach.ok_bind]
  cases hrow : s.row partition id with
  | error e => rfl
  | ok v =>
    obtain ⟨hlocate, hcell⟩ := of_row hrow
    dsimp only
    cases hv : v.cell with
    | none => rfl
    | some cell =>
      have hlen := h.tabular.length_values h.toWired h.toChained
        (h.toChained.of_locate hlocate).1 (hcell.trans hv)
      dsimp only
      rw [require_bind ((hf cell.values).trans hlen), Breach.pure_eq]

end regular

end RowStore

end ArchetypeStore

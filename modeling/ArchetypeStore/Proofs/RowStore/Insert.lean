import ArchetypeStore.Proofs.RowStore.Issue

/-! # What storing an item does

  An item is stored in the row of an id that was issued for it, just before or some time
  ago. The row then holds the item and its values, the item carries the id of the row, and
  no other row changes.
-/

namespace ArchetypeStore.RowStore

variable {T V : Type} {s s' : RowStore T V} {reserved : List SlotId} {partition : Nat}

/-- What is seen after an item was stored in an empty row. -/
structure Stored (s s' : RowStore T V) (partition chunk row item : Nat) (values : List V) :
    Prop where
  steady : Steady s s'
  mem_chain : chunk ∈ s'.chain partition
  row_lt : row < s.format.rowsPerChunk
  empty : s.cell? chunk row = none
  cell : ∀ c r, s'.cell? c r =
    if c = chunk ∧ r = row then some ⟨item, values⟩ else s.cell? c r
  ids : s'.ids = s.ids.setIfInBounds item (s.format.slotId chunk row)

theorem Stored.cell_self {chunk row item : Nat} {values : List V}
    (h : Stored s s' partition chunk row item values) :
    s'.cell? chunk row = some ⟨item, values⟩ := by
  rw [h.cell, if_pos ⟨rfl, rfl⟩]

theorem Stored.cell_of_some {chunk row item : Nat} {values : List V}
    (h : Stored s s' partition chunk row item values) {c r : Nat} {cell : Cell V}
    (hcell : s.cell? c r = some cell) : s'.cell? c r = some cell := by
  rw [h.cell, if_neg, hcell]
  rintro ⟨rfl, rfl⟩
  rw [h.empty] at hcell
  cases hcell

/-! ### Rows that were issued -/

/-- An item goes into a claimed row that holds none. -/
theorem occupy_vacant (h : Chained s) {chunk row : Nat} (hc : chunk ∈ s.chain partition)
    (hr : row < s.fill chunk) (hempty : s.cell? chunk row = none) (item : Nat)
    (values : List V) :
    ∃ s', s.occupy partition (s.format.slotId chunk row) item values = (.ok (), s') ∧
      SameChains s s' ∧ s'.partitions = s.partitions ∧
        Stored s s' partition chunk row item values ∧ ∀ c, s'.fill c = s.fill c := by
  have hsame : SameChains s
      ((s.setId item (s.format.slotId chunk row)).setCell chunk row (some ⟨item, values⟩)) :=
    (SameChains.setId s item _).trans (SameChains.modifyRows _ chunk _)
  have hfill : ∀ c, ((s.setId item (s.format.slotId chunk row)).setCell chunk row
      (some ⟨item, values⟩)).fill c = s.fill c :=
    fill_setCell (s.setId item (s.format.slotId chunk row)) hr _
  have hcell : ∀ c r, ((s.setId item (s.format.slotId chunk row)).setCell chunk row
      (some ⟨item, values⟩)).cell? c r =
        if c = chunk ∧ r = row then some ⟨item, values⟩ else s.cell? c r :=
    cell?_setCell (s.setId item (s.format.slotId chunk row)) hr _
  refine ⟨_, ?_, hsame, rfl, ⟨hsame.steady, ?_, h.lt_rowsPerChunk hr, hempty, hcell, rfl⟩, hfill⟩
  · rw [occupy, h.locate_slotId hc hr]
    simp only
    rw [hempty]
  · rw [hsame.chain]
    exact hc

/-- An item goes into a row that was reserved. -/
theorem occupy_reserved (h : Sound s reserved) {chunk row : Nat}
    (hc : chunk ∈ s.chain partition) (hr : row < s.fill chunk)
    (hid : s.format.slotId chunk row ∈ reserved) (item : Nat) (values : List V) :
    ∃ s', s.occupy partition (s.format.slotId chunk row) item values = (.ok (), s') ∧
      Sound s' (reserved.erase (s.format.slotId chunk row)) ∧
        Stored s s' partition chunk row item values ∧ ∀ c, s'.fill c = s.fill c := by
  obtain ⟨s', hoccupy, hsame, hpartitions, hstored, hfill⟩ :=
    occupy_vacant h.toChained hc hr (h.cell?_of_reserved hc hid) item values
  refine ⟨s', hoccupy, ?_, hstored, hfill⟩
  refine h.publish hc hr hid hsame hfill hstored.cell (fun q => ?_) ?_
  · rw [freeList, freeList, hpartitions]
  · unfold FreeFits
    rw [hpartitions]
    exact h.room

/-- A row that holds an item keeps it, but the item that is refused has the id. -/
theorem occupy_occupied (h : Chained s) {chunk row : Nat} (hc : chunk ∈ s.chain partition)
    (hr : row < s.fill chunk) {cell : Cell V} (hcell : s.cell? chunk row = some cell)
    (item : Nat) (values : List V) :
    s.occupy partition (s.format.slotId chunk row) item values =
      (.error (.duplicateValue (s.format.slotId chunk row).toNat),
        s.setId item (s.format.slotId chunk row)) := by
  simp only [occupy, h.locate_slotId hc hr, hcell]

theorem occupy_of_not_found {id : SlotId} (hlocate : s.locate partition id = none) (item : Nat)
    (values : List V) : s.occupy partition id item values = (.error .entityNotFound, s) := by
  rw [occupy, hlocate]

/-! ### Insertion -/

/-- In a row that was just issued, occupying is what insertion does. -/
theorem insert_eq_occupy [ComponentType T] (h : Sound s reserved) {id : SlotId}
    {s₁ : RowStore T V} (hissue : s.issue partition = (.ok id, s₁)) (item : Nat)
    (values : List V) :
    s.insert partition item values =
      match s₁.occupy partition id item values with
      | (.error e, s) => (.error e, s)
      | (.ok (), s) => (.ok id, s) := by
  obtain ⟨chunk, row, rfl, hissued, hsound⟩ := issue_ok h hissue
  have hid : s₁.format.slotId chunk row ∈ s.format.slotId chunk row :: reserved := by
    rw [hissued.steady.format]
    exact List.mem_cons_self ..
  have hlocate : s₁.locate partition (s.format.slotId chunk row) = some (chunk, row) := by
    rw [← hissued.steady.format]
    exact hsound.locate_slotId hissued.mem_chain hissued.lt_fill
  have hempty : s₁.cell? chunk row = none := hsound.cell?_of_reserved hissued.mem_chain hid
  simp only [insert, hissue, occupy, hlocate, occupyRow, cell?_setId, hempty]

theorem insert_ok [ComponentType T] (h : Sound s reserved) {item : Nat} {values : List V}
    {id : SlotId} (hinsert : s.insert partition item values = (.ok id, s')) :
    ∃ chunk row, id = s.format.slotId chunk row ∧ id ∉ reserved ∧ Sound s' reserved ∧
      Stored s s' partition chunk row item values ∧ (Dense s → Dense s') := by
  cases hissue : s.issue partition with
  | mk answer s₁ =>
    cases answer with
    | error e =>
      simp only [insert, hissue] at hinsert
      cases hinsert
    | ok id₁ =>
      rw [insert_eq_occupy h hissue] at hinsert
      obtain ⟨chunk, row, rfl, hissued, hsound⟩ := issue_ok h hissue
      have hid : s₁.format.slotId chunk row ∈ s.format.slotId chunk row :: reserved := by
        rw [hissued.steady.format]
        exact List.mem_cons_self ..
      obtain ⟨s₂, hoccupy, hsound₂, hstored, hfill₂⟩ :=
        occupy_reserved hsound hissued.mem_chain hissued.lt_fill hid item values
      rw [hissued.steady.format] at hoccupy hsound₂
      rw [hoccupy] at hinsert
      cases hinsert
      -- The id that was issued is registered at once, and nothing else was.
      rw [List.erase_cons_head] at hsound₂
      refine ⟨chunk, row, rfl, hsound.not_mem_reserved, hsound₂, ?_, ?_⟩
      · refine ⟨hissued.steady.trans hstored.steady, hstored.mem_chain, hissued.row_lt,
          hissued.empty, ?_, ?_⟩
        · intro c r
          rw [hstored.cell, hissued.cell]
        · rw [hstored.ids, hissued.ids, hissued.steady.format]
      · -- The row is the next one, since no claimed row is empty.
        intro hdense c r hr
        rw [hfill₂, hissued.fill] at hr
        rw [hstored.cell, hissued.cell]
        split
        · rfl
        · rename_i hne
          refine hdense c r ?_
          split at hr
          · rename_i heq
            subst heq
            have hrow : r ≠ row := fun heq => hne ⟨rfl, heq⟩
            have := hissued.row_le
            omega
          · exact hr

/-- An insertion is refused only when no id is issued. -/
theorem issue_of_insert_error [ComponentType T] (h : Sound s reserved) {item : Nat}
    {values : List V} {e : StoreError} (hinsert : s.insert partition item values = (.error e, s')) :
    s.issue partition = (.error e, s') := by
  cases hissue : s.issue partition with
  | mk answer s₁ =>
    cases answer with
    | error e' =>
      simp only [insert, hissue] at hinsert
      exact hinsert ▸ rfl
    | ok id =>
      rw [insert_eq_occupy h hissue] at hinsert
      obtain ⟨chunk, row, rfl, hissued, hsound⟩ := issue_ok h hissue
      have hid : s₁.format.slotId chunk row ∈ s.format.slotId chunk row :: reserved := by
        rw [hissued.steady.format]
        exact List.mem_cons_self ..
      obtain ⟨s₂, hoccupy, -⟩ :=
        occupy_reserved hsound hissued.mem_chain hissued.lt_fill hid item values
      rw [hissued.steady.format] at hoccupy
      rw [hoccupy] at hinsert
      -- After the issue nothing can be refused any more.
      cases hinsert

/-- An insertion is refused only when the partition cannot grow, and then changes
nothing. -/
theorem insert_error [ComponentType T] (h : Sound s reserved) {layout : List T}
    (hlayout : s.layout? partition = some layout) {item : Nat} {values : List V}
    {e : StoreError} (hinsert : s.insert partition item values = (.error e, s')) :
    s' = s ∧ s.CannotGrow layout e :=
  issue_error h hlayout (issue_of_insert_error h hinsert)

/-- An insertion that is refused changes nothing. -/
theorem insert_stays [ComponentType T] (h : Sound s reserved) {item : Nat} {values : List V}
    {e : StoreError} (hinsert : s.insert partition item values = (.error e, s')) : s' = s :=
  issue_stays h (issue_of_insert_error h hinsert)

end ArchetypeStore.RowStore

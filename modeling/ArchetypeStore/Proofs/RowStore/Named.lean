import ArchetypeStore.Proofs.RowStore.Regular

/-! # Items that carry the ids of their rows

  An item that is stored takes the id of its row, and it takes the new id when it moves. So
  each item in a row carries the id of the row, as long as nobody gives it another id and
  it is not stored a second time while a row holds it.
-/

namespace ArchetypeStore

namespace RowStore

variable {T V : Type} {s s' : RowStore T V} {reserved : List SlotId} {partition : Nat}

/-- Each item in a row carries the id of the row. -/
def Named (s : RowStore T V) : Prop :=
  ∀ c r cell, s.cell? c r = some cell →
    cell.item < s.ids.size ∧ s.idOf cell.item = s.format.slotId c r

/-- No row holds the item. -/
def Idle (s : RowStore T V) (item : Nat) : Prop :=
  ∀ c r cell, s.cell? c r = some cell → cell.item ≠ item

namespace Named

/-- The same items are in the same rows, and they carry what they carried. -/
theorem congr (h : Named s) (hformat : s'.format = s.format)
    (hcell : ∀ c r cell', s'.cell? c r = some cell' → ∃ cell, s.cell? c r = some cell ∧
      cell.item = cell'.item)
    (hsize : s.ids.size ≤ s'.ids.size)
    (hids : ∀ c r cell, s.cell? c r = some cell → s'.idOf cell.item = s.idOf cell.item) :
    Named s' := by
  intro c r cell' hcell'
  obtain ⟨cell, hold, hitem⟩ := hcell c r cell' hcell'
  obtain ⟨hlt, hid⟩ := h c r cell hold
  rw [← hitem, hformat, hids c r cell hold]
  exact ⟨Nat.lt_of_lt_of_le hlt hsize, hid⟩

/-- All rows hold what they held, and no item got another id. -/
theorem same (h : Named s) (hformat : s'.format = s.format)
    (hcell : ∀ c r, s'.cell? c r = s.cell? c r) (hids : s'.ids = s.ids) : Named s' := by
  refine h.congr hformat (fun c r cell hold => ⟨cell, (hcell c r).symm.trans hold, rfl⟩)
    (Nat.le_of_eq (congrArg Array.size hids.symm)) fun c r cell _ => ?_
  rw [idOf, hids]
  rfl

theorem alike (h : Named s) (halike : Alike s s') : Named s' :=
  h.same halike.format halike.cell? halike.ids

/-- The row holds the same item as before. -/
theorem setCell (h : Named s) {chunk row : Nat} {old new : Cell V}
    (hcell : s.cell? chunk row = some old) (hitem : old.item = new.item) :
    Named (s.setCell chunk row (some new)) := by
  refine h.congr rfl (fun c r cell' hcell' => ?_) (Nat.le_refl _) fun _ _ _ _ => rfl
  rw [cell?_setCell s (lt_fill_of_cell? hcell)] at hcell'
  split at hcell'
  · rename_i heq
    cases hcell'
    exact ⟨old, by rw [heq.1, heq.2]; exact hcell, hitem⟩
  · exact ⟨cell', hcell', rfl⟩

/-- No item is in two rows, since it carries one id. -/
theorem row_unique (h : Named s) (hs : Chained s) {c r c' r' : Nat} {cell cell' : Cell V}
    (hcell : s.cell? c r = some cell) (hcell' : s.cell? c' r' = some cell')
    (hitem : cell.item = cell'.item) : c = c' ∧ r = r' := by
  have hlt := lt_fill_of_cell? hcell
  have hlt' := lt_fill_of_cell? hcell'
  refine (hs.slotId_eq_iff (lt_chunkCount_of_lt_fill hlt) (hs.lt_rowsPerChunk hlt)
    (lt_chunkCount_of_lt_fill hlt') (hs.lt_rowsPerChunk hlt')).mp ?_
  rw [← (h c r cell hcell).2, hitem, (h c' r' cell' hcell').2]

theorem empty (format : IdFormat) : Named (.empty format : RowStore T V) := by
  intro c r cell hcell
  exact nomatch lt_fill_of_cell? hcell

theorem newItem (h : Named s) : Named s.newItem.2 := by
  refine h.congr rfl (fun c r cell hcell => ⟨cell, hcell, rfl⟩) ?_ fun _ _ cell _ =>
    idOf_newItem s cell.item
  exact Array.size_push .. ▸ Nat.le_succ _

/-- An item that no row holds may carry anything. -/
theorem setId (h : Named s) {item : Nat} (hidle : s.Idle item) (id : SlotId) :
    Named (s.setId item id) := by
  refine h.congr rfl (fun c r cell hcell => ⟨cell, hcell, rfl⟩)
    (Nat.le_of_eq (itemCount_setId s item id).symm) fun c r cell hcell => ?_
  have hne := hidle c r cell hcell
  unfold idOf RowStore.setId
  rw [Array.getElem?_setIfInBounds_ne (Ne.symm hne)]

/-- The item that was made last may be taken back while no row holds it. -/
theorem dropLastItem (h : Named s) (hidle : s.Idle (s.ids.size - 1)) : Named s.dropLastItem := by
  intro c r cell hcell
  obtain ⟨hlt, hid⟩ := h c r cell hcell
  have hne := hidle c r cell hcell
  have hlt' : cell.item < s.ids.size - 1 := by omega
  refine ⟨?_, ?_⟩
  · show cell.item < s.ids.pop.size
    rwa [Array.size_pop]
  · show (s.ids.pop[cell.item]?).getD 0 = s.format.slotId c r
    rw [← hid, idOf, Array.getElem?_pop, if_pos hlt']

/-- An item that no row held takes the id of the row that it is stored in. -/
theorem stored (h : Named s) {chunk row item : Nat} {values : List V}
    (hstored : Stored s s' partition chunk row item values) (hidle : s.Idle item)
    (hitem : item < s.ids.size) : Named s' := by
  have hsize : s'.ids.size = s.ids.size := by rw [hstored.ids, Array.size_setIfInBounds]
  intro c r cell hcell
  rw [hstored.cell] at hcell
  rw [hsize, hstored.steady.format]
  split at hcell
  · rename_i heq
    cases hcell
    refine ⟨hitem, ?_⟩
    rw [heq.1, heq.2, idOf, hstored.ids]
    simp [hitem]
  · obtain ⟨hlt, hid⟩ := h c r cell hcell
    refine ⟨hlt, ?_⟩
    rw [← hid, idOf, hstored.ids, Array.getElem?_setIfInBounds_ne (hidle c r cell hcell).symm]
    rfl

/-- A removal takes its item out of the rows. The item that moves takes its new id. -/
theorem vacated (h : Named s) (hs : Chained s) {chunk row given : Nat} {cell : Cell V}
    (hcell : s.cell? chunk row = some cell) (hvacated : Vacated s s' chunk row given) :
    Named s' ∧ s'.Idle cell.item ∧ s'.ids.size = s.ids.size := by
  have hsize : s'.ids.size = s.ids.size := by
    rcases hvacated.ids with ⟨-, hids⟩ | ⟨-, moved, -, hids⟩
    · rw [hids]
    · rw [hids, relocate, itemCount_setId]
  -- The item of each row was in some row before, and not in the one that was emptied.
  have hbefore : ∀ c r cell', s'.cell? c r = some cell' →
      ∃ c' r', s.cell? c' r' = some cell' ∧ ¬ (c' = chunk ∧ r' = row) := by
    intro c r cell' hcell'
    rw [hvacated.cell] at hcell'
    split at hcell'
    · cases hcell'
    · split at hcell'
      · rename_i hgiven hrow
        refine ⟨chunk, given, hcell', fun heq => hgiven ⟨hrow.1, ?_⟩⟩
        rw [hrow.2, ← heq.2]
      · exact ⟨c, r, hcell', by assumption⟩
  refine ⟨?_, ?_, hsize⟩
  · intro c r cell' hcell'
    obtain ⟨c', r', hold, -⟩ := hbefore c r cell' hcell'
    rw [hsize, hvacated.same.format]
    refine ⟨(h c' r' cell' hold).1, ?_⟩
    rw [hvacated.cell] at hcell'
    split at hcell'
    · cases hcell'
    · rename_i hgiven
      split at hcell'
      · rename_i hrow
        rcases hvacated.ids with ⟨hsame, -⟩ | ⟨-, moved, hmoved, hids⟩
        · exact absurd ⟨hrow.1, hrow.2.trans hsame.symm⟩ hgiven
        · cases hcell'.symm.trans hmoved
          obtain ⟨hlt, hid⟩ := h chunk given cell' hcell'
          have hrows := lt_fill_of_cell? hcell
          have hgivens := lt_fill_of_cell? hcell'
          have hplain := hs.slotId_isPlain (lt_chunkCount_of_lt_fill hgivens)
            (hs.lt_rowsPerChunk hgivens)
          have hplain' := hs.slotId_isPlain (lt_chunkCount_of_lt_fill hrows)
            (hs.lt_rowsPerChunk hrows)
          rw [idOf, hids, hrow.1, hrow.2]
          show (s.relocate cell'.item (s.format.slotId chunk row)).idOf cell'.item = _
          rw [relocate, idOf_setId s _ _ _ hlt, if_pos rfl, hid,
            SlotId.relocate_of_isPlain hplain hplain']
      · rename_i hrow
        rw [← (h c r cell' hcell').2]
        rcases hvacated.ids with ⟨-, hids⟩ | ⟨-, moved, hmoved, hids⟩
        · rw [idOf, hids]
          rfl
        · -- The item that moved was in the row that was given up.
          have hne : cell'.item ≠ moved.item := by
            intro heq
            exact hgiven (h.row_unique hs hcell' hmoved heq)
          rw [idOf, hids]
          show (s.relocate moved.item _).idOf cell'.item = _
          rw [relocate, idOf_setId s _ _ _ (h _ _ _ hmoved).1, if_neg hne]
  · intro c r cell' hcell' hitem
    obtain ⟨c', r', hold, hnot⟩ := hbefore c r cell' hcell'
    exact hnot (h.row_unique hs hold hcell hitem)

end Named

end RowStore

end ArchetypeStore

import ArchetypeStore.Proofs.RowStore.Frame
import ArchetypeStore.Proofs.RowStore.Isolation

/-! # Which ids can be registered

  An item is registered under an id that was issued before. The store keeps no list of the ids
  that are out. It tells them by their rows, which are claimed and hold no item. A hole that a
  removal left is such a row too, although its id lies on the free stack, so it can be
  registered as well, and the id is issued later all the same.

  An item takes its id before the row is looked at. When the row turns out to be occupied, the
  registration is refused and the rows stay as they are, but the item keeps the id.
-/

namespace ArchetypeStore

namespace RowStore

variable {T V : Type} {s : RowStore T V} {partition : Nat} {id : SlotId}

/-! ### Claimed rows -/

/-- The id names a claimed row of the partition, and this is what the row holds. -/
def Claims (s : RowStore T V) (partition : Nat) (id : SlotId) (cell : Option (Cell V)) : Prop :=
  ∃ chunk ∈ s.chain partition, ∃ row, row < s.fill chunk ∧ id = s.format.slotId chunk row ∧
    s.cell? chunk row = cell

/-- An id without flags that is found names the row where it is found. -/
theorem Chained.claims_of_locate (h : Chained s) (hid : id.isPlain = true)
    {place : Nat × Nat} (hlocate : s.locate partition id = some place) :
    s.Claims partition id (s.cell? place.1 place.2) := by
  obtain ⟨rfl, hc, hrow⟩ := h.locate_eq_some_iff.mp hlocate
  refine ⟨_, hc, _, hrow, ?_, rfl⟩
  rw [← IdFormat.place_eq_slotId h.valid, SlotId.place_of_isPlain hid]

/-! ### How a registration ends -/

/-- What comes of registering an item under an id. -/
structure Registration (s : RowStore T V) (partition : Nat) (id : SlotId) (item : Nat)
    (values : List V) : Prop where
  /-- It succeeds exactly when the id names a claimed row that holds no item. -/
  ok_iff : (s.occupy partition id item values).1 = .ok () ↔ s.Claims partition id none
  /-- Then the row holds the item, the item has the id, and all else stays. -/
  stored : ∀ s', s.occupy partition id item values = (.ok (), s') →
    (∃ chunk row, id = s.format.slotId chunk row ∧
      Stored s s' partition chunk row item values) ∧
    (item < s.ids.size → s'.idOf item = id) ∧ SameChains s s' ∧
      (∀ c, s'.fill c = s.fill c) ∧ ∀ q, s'.freeList q = s.freeList q
  /-- An id that names no claimed row is unknown, and nothing changes. -/
  unknown : (∀ cell, ¬ s.Claims partition id cell) →
    s.occupy partition id item values = (.error .entityNotFound, s)
  /-- When the row holds an item, all that changes is the id of the item that was refused. -/
  occupied : ∀ cell, s.Claims partition id (some cell) →
    s.occupy partition id item values = (.error (.duplicateValue id.toNat), s.setId item id)

theorem occupy_of_unknown (h : Chained s) (hid : id.isPlain = true)
    (hunknown : ∀ cell, ¬ s.Claims partition id cell) (item : Nat) (values : List V) :
    s.occupy partition id item values = (.error .entityNotFound, s) := by
  cases hlocate : s.locate partition id with
  | none => exact occupy_of_not_found hlocate item values
  | some place => exact absurd (h.claims_of_locate hid hlocate) (hunknown _)

/-- Every registration ends in one of the three ways. -/
theorem Chained.registration (h : Chained s) (hid : id.isPlain = true) (partition item : Nat)
    (values : List V) : s.Registration partition id item values := by
  have hoccupied : ∀ cell, s.Claims partition id (some cell) →
      s.occupy partition id item values =
        (.error (.duplicateValue id.toNat), s.setId item id) := by
    rintro cell ⟨chunk, hc, row, hrow, rfl, hcell⟩
    exact occupy_occupied h hc hrow hcell item values
  have hvacant : s.Claims partition id none →
      ∃ chunk row s', id = s.format.slotId chunk row ∧
        s.occupy partition id item values = (.ok (), s') ∧ SameChains s s' ∧
          s'.partitions = s.partitions ∧ Stored s s' partition chunk row item values ∧
            ∀ c, s'.fill c = s.fill c := by
    rintro ⟨chunk, hc, row, hrow, rfl, hempty⟩
    obtain ⟨s', hoccupy⟩ := occupy_vacant h hc hrow hempty item values
    exact ⟨chunk, row, s', rfl, hoccupy⟩
  have hok : (s.occupy partition id item values).1 = .ok () → s.Claims partition id none := by
    intro hok
    cases hlocate : s.locate partition id with
    | none =>
      rw [occupy_of_not_found hlocate] at hok
      cases hok
    | some place =>
      have hclaims := h.claims_of_locate hid hlocate
      cases hcell : s.cell? place.1 place.2 with
      | none => rwa [hcell] at hclaims
      | some cell =>
        rw [hcell] at hclaims
        rw [hoccupied cell hclaims] at hok
        cases hok
  refine ⟨⟨hok, ?_⟩, ?_, fun hunknown => occupy_of_unknown h hid hunknown item values,
    hoccupied⟩
  · intro hclaims
    obtain ⟨_, _, s', -, hoccupy, -⟩ := hvacant hclaims
    rw [hoccupy]
  · intro s' hoccupy
    have hclaims : s.Claims partition id none := hok (by rw [hoccupy])
    obtain ⟨chunk, row, s₁, hname, hoccupy₁, hsame, hpartitions, hstored, hfill⟩ :=
      hvacant hclaims
    rw [hoccupy] at hoccupy₁
    cases hoccupy₁
    refine ⟨⟨chunk, row, hname, hstored⟩, ?_, hsame, hfill, ?_⟩
    · intro hitem
      have hids : s'.idOf item = (s.setId item id).idOf item := by
        rw [hname, idOf, hstored.ids]
        rfl
      rw [hids, idOf_setId s item id item hitem, if_pos rfl]
    · intro q
      rw [freeList, freeList, hpartitions]

end RowStore

namespace Pool

variable {T V : Type} {pool : Pool T V} {partition : Nat} {id : SlotId}

/-! ### Ids that are out -/

/-- The id is out, and it names a slot of the partition. -/
def Awaits (pool : Pool T V) (partition : Nat) (id : SlotId) : Prop :=
  id ∈ pool.reserved ∧ pool.store.format.chunkOf id ∈ pool.store.chain partition

/-- In order, the claimed rows without an item are those whose ids are out, and the holes. -/
theorem claims_none_iff (h : pool.store.Sound pool.reserved) :
    pool.store.Claims partition id none ↔
      pool.Awaits partition id ∨ pool.store.Hole partition id := by
  constructor
  · rintro ⟨chunk, hc, row, hrow, rfl, hempty⟩
    have hlt := h.chain_lt partition chunk hc
    have hr := h.lt_rowsPerChunk hrow
    obtain ⟨k, hk, -⟩ := exists_class (h.shares_one partition chunk hc row hr)
    cases k with
    | published =>
      obtain ⟨cell, hcell⟩ := hk
      rw [hempty] at hcell
      cases hcell
    | reserved =>
      left
      rw [Awaits, h.chunkOf_slotId hlt hr]
      exact ⟨hk, hc⟩
    | free =>
      right
      rw [RowStore.Hole, h.chunkOf_slotId hlt hr, h.rowOf_slotId hlt hr]
      exact ⟨hk, hrow⟩
    | unclaimed => exact absurd hrow (Nat.not_lt_of_le hk.2)
  · rintro (⟨hres, hc⟩ | ⟨hfree, hrow⟩)
    · obtain ⟨_, chunk, hchunk, row, hrow, rfl⟩ := h.of_reserved hres
      rw [h.chunkOf_slotId (h.chain_lt _ chunk hchunk) (h.lt_rowsPerChunk hrow)] at hc
      exact ⟨chunk, hc, row, hrow, rfl, h.cell?_of_reserved hc hres⟩
    · obtain ⟨chunk, hc, row, hr, rfl⟩ := h.free_slot partition id hfree
      have hlt := h.chain_lt partition chunk hc
      rw [h.chunkOf_slotId hlt hr, h.rowOf_slotId hlt hr] at hrow
      exact ⟨chunk, hc, row, hrow, rfl, (h.of_free hc hr hfree).1⟩

/-! ### Runs -/

variable [ComponentType T]

theorem store_after (pool : Pool T V) (calls : List (RowStore.Call T V)) :
    (pool.after calls).store = pool.store.after calls := by
  induction calls generalizing pool with
  | nil => rfl
  | cons call rest ih => exact ih (pool.next call)

theorem chained_after {rowBits : Nat} {limit : Option Nat} {format : IdFormat}
    (hformat : IdFormat.create rowBits limit = .ok format) (calls : List (RowStore.Call T V)) :
    ((Pool.empty format).after calls).store.Chained := by
  rw [store_after]
  exact (RowStore.after_wired hformat calls).toChained

/-- Whatever was called before, an id without flags can be registered exactly when it names a
claimed row that holds no item. As long as only ids that are out were registered, these are the
ids that are out and the holes. -/
theorem registration_after {rowBits : Nat} {limit : Option Nat} {format : IdFormat}
    (hformat : IdFormat.create rowBits limit = .ok format) (calls : List (RowStore.Call T V))
    {id : SlotId} (hid : id.isPlain = true) (partition item : Nat) (values : List V) :
    ((Pool.empty format).after calls).store.Registration partition id item values ∧
      ((Pool.empty format).Orderly calls →
        (((Pool.empty format).after calls).store.Claims partition id none ↔
          ((Pool.empty format).after calls).Awaits partition id ∨
            ((Pool.empty format).after calls).store.Hole partition id)) := by
  constructor
  · exact (chained_after hformat calls).registration hid partition item values
  · intro horderly
    exact claims_none_iff (horderly.sound_of_empty hformat)

/-- An item is stored, the next id is issued, and the item is removed: its row stays as a
hole, since the last row waits for its item. -/
def holing : List (RowStore.Call Sample Nat) :=
  [.newPartition [], .newItem, .newItem, .insert 0 0 [], .issue 0, .evict 0 0 fun _ => .ok ()]

def holed : Pool Sample Nat := (Pool.empty ⟨2, 1 <<< 28⟩).after holing

/-- Two items in two rows. -/
def pairing : List (RowStore.Call Sample Nat) :=
  [.newPartition [], .newItem, .newItem, .insert 0 0 [], .insert 0 1 []]

def paired : Pool Sample Nat := (Pool.empty ⟨2, 1 <<< 28⟩).after pairing

theorem holing_orderly : (Pool.empty ⟨2, 1 <<< 28⟩ : Pool Sample Nat).Orderly holing := by
  simp only [holing, Orderly, Allows, and_self]

theorem pairing_orderly : (Pool.empty ⟨2, 1 <<< 28⟩ : Pool Sample Nat).Orderly pairing := by
  simp only [pairing, Orderly, Allows, and_self]

theorem registration_after_holed :
    IdFormat.create 2 none = .ok ⟨2, 1 <<< 28⟩ ∧ SlotId.isPlain 0 = true ∧
      holed.store.Registration 0 0 1 [] ∧
      (holed.store.Claims 0 0 none ↔ holed.Awaits 0 0 ∨ holed.store.Hole 0 0) ∧
        holed.store.Hole 0 0 := by
  have hformat : IdFormat.create 2 none = .ok ⟨2, 1 <<< 28⟩ := rfl
  have hplain : SlotId.isPlain 0 = true := by decide
  obtain ⟨hregistration, hclaims⟩ := registration_after hformat holing hplain 0 1 []
  refine ⟨hformat, hplain, hregistration, hclaims holing_orderly, ?_⟩
  exact ⟨by decide +kernel, by decide +kernel⟩

/-- So an id can be registered that is not out but lies on the free stack, where it stays. And an
item whose registration is refused may lose the id of the row where it is. -/
theorem registration_inexact :
    (¬ ∀ calls, (Pool.empty ⟨2, 1 <<< 28⟩ : Pool Sample Nat).Orderly calls →
      ∀ partition, ((Pool.empty ⟨2, 1 <<< 28⟩).after calls).store.layout? partition = some [] →
        ∀ id item, id.isPlain = true →
          (((Pool.empty ⟨2, 1 <<< 28⟩).after calls).store.occupy partition id item []).1 =
            .ok () → ((Pool.empty ⟨2, 1 <<< 28⟩).after calls).Awaits partition id) ∧
    ¬ ∀ calls, (Pool.empty ⟨2, 1 <<< 28⟩ : Pool Sample Nat).Orderly calls →
      ∀ partition, ((Pool.empty ⟨2, 1 <<< 28⟩).after calls).store.layout? partition = some [] →
        ∀ id item error store, id.isPlain = true →
          ((Pool.empty ⟨2, 1 <<< 28⟩).after calls).store.occupy partition id item [] =
            (.error error, store) →
          store.idOf item = ((Pool.empty ⟨2, 1 <<< 28⟩).after calls).store.idOf item := by
  have hformat : IdFormat.create 2 none = .ok ⟨2, 1 <<< 28⟩ := rfl
  constructor
  · intro hexact
    have hvacant : holed.store.Claims 0 0 none :=
      ⟨0, by decide +kernel, 0, by decide +kernel, by decide +kernel, by decide +kernel⟩
    have hok : (holed.store.occupy 0 0 1 []).1 = .ok () :=
      ((chained_after hformat holing).registration (by decide) 0 1 []).ok_iff.mpr hvacant
    have hawaits := hexact holing holing_orderly 0 (by decide +kernel) 0 1 (by decide) hok
    have hout : (0 : SlotId) ∉ holed.reserved := by decide +kernel
    exact hout hawaits.1
  · intro hexact
    have hoccupied : paired.store.Claims 0 1 (some ⟨1, []⟩) :=
      ⟨0, by decide +kernel, 1, by decide +kernel, by decide +kernel, by decide +kernel⟩
    have hrefused : paired.store.occupy 0 1 0 [] =
        (.error (.duplicateValue 1), paired.store.setId 0 1) :=
      ((chained_after hformat pairing).registration (by decide) 0 0 []).occupied _ hoccupied
    have hkept := hexact pairing pairing_orderly 0 (by decide +kernel) 1 0 _ _ (by decide)
      hrefused
    have hbefore : paired.store.idOf 0 = 0 := by decide +kernel
    have hafter : (paired.store.setId 0 1).idOf 0 = 1 := by decide +kernel
    have hsame : (paired.store.setId 0 1).idOf 0 = paired.store.idOf 0 := hkept
    rw [hbefore, hafter] at hsame
    cases hsame

end Pool

end ArchetypeStore

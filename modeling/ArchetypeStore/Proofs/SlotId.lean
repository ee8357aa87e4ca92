import ArchetypeStore.SlotId

/-! # Packing of slot ids

  A valid format leaves room for both flags: every id it packs is plain, and the chunk and
  the row can be read back. So ids name slots one to one. The flags of an id do not touch
  its place.
-/

namespace ArchetypeStore

/-! ### Valid formats -/

namespace IdFormat

/-- What `create` promises of a format. -/
structure Valid (format : IdFormat) : Prop where
  rowBits_ge : minRowBits ≤ format.rowBits
  rowBits_le : format.rowBits ≤ maxRowBits
  maxChunks_pos : 1 ≤ format.maxChunks
  maxChunks_le : format.maxChunks ≤ 1 <<< (SlotId.placeBits - format.rowBits)

theorem create_valid {rowBits : Nat} {limit : Option Nat} {format : IdFormat}
    (h : create rowBits limit = .ok format) : format.Valid := by
  unfold create at h
  split at h
  · cases h
  · rename_i hbits
    have hlow : minRowBits ≤ rowBits := by omega
    have hhigh : rowBits ≤ maxRowBits := by omega
    have hpos : 1 ≤ 1 <<< (SlotId.placeBits - rowBits) := by
      rw [Nat.one_shiftLeft]
      exact Nat.one_le_two_pow
    match limit, h with
    | some (n + 1), h =>
      cases h
      exact ⟨hlow, hhigh, Nat.le_min.mpr ⟨Nat.succ_pos n, hpos⟩, Nat.min_le_right ..⟩
    | none, h =>
      cases h
      exact ⟨hlow, hhigh, hpos, Nat.le_refl _⟩

section

variable {format : IdFormat}

theorem rowsPerChunk_pos (format : IdFormat) : 0 < format.rowsPerChunk := by
  rw [rowsPerChunk, Nat.one_shiftLeft]
  exact Nat.two_pow_pos _

/-- All slots of all chunks fit below the flags. -/
theorem Valid.slots_le (h : format.Valid) :
    format.maxChunks * format.rowsPerChunk ≤ 1 <<< 30 := by
  have hle : format.rowBits ≤ SlotId.placeBits := Nat.le_trans h.rowBits_le (by decide)
  calc format.maxChunks * format.rowsPerChunk
      ≤ (1 <<< (SlotId.placeBits - format.rowBits)) * (1 <<< format.rowBits) :=
        Nat.mul_le_mul_right _ h.maxChunks_le
    _ = 1 <<< SlotId.placeBits := by
        simp only [Nat.one_shiftLeft]
        rw [← Nat.pow_add, Nat.sub_add_cancel hle]

/-- The number that an id packs. -/
theorem slot_lt (h : format.Valid) {chunk row : Nat} (hc : chunk < format.maxChunks)
    (hr : row < format.rowsPerChunk) : chunk * format.rowsPerChunk + row < 1 <<< 30 := by
  have hmul : (chunk + 1) * format.rowsPerChunk ≤ format.maxChunks * format.rowsPerChunk :=
    Nat.mul_le_mul_right _ hc
  have hall := h.slots_le
  rw [Nat.add_mul, Nat.one_mul] at hmul
  omega

/-! ### Reading an id back -/

theorem toNat_slotId (h : format.Valid) {chunk row : Nat} (hc : chunk < format.maxChunks)
    (hr : row < format.rowsPerChunk) :
    (format.slotId chunk row).toNat = chunk * format.rowsPerChunk + row := by
  have hlt := slot_lt h hc hr
  unfold slotId
  rw [Nat.mod_eq_of_lt hr, UInt32.toNat_ofNat', Nat.mod_eq_of_lt (by omega)]

theorem slotId_isPlain (h : format.Valid) {chunk row : Nat} (hc : chunk < format.maxChunks)
    (hr : row < format.rowsPerChunk) : (format.slotId chunk row).isPlain = true := by
  have hlt := slot_lt h hc hr
  exact decide_eq_true (by rw [toNat_slotId h hc hr]; exact hlt)

theorem chunkOf_slotId (h : format.Valid) {chunk row : Nat} (hc : chunk < format.maxChunks)
    (hr : row < format.rowsPerChunk) : format.chunkOf (format.slotId chunk row) = chunk := by
  have hlt := slot_lt h hc hr
  unfold chunkOf
  rw [toNat_slotId h hc hr, SlotId.placeBits, Nat.mod_eq_of_lt hlt, Nat.mul_comm,
    Nat.mul_add_div (rowsPerChunk_pos format), Nat.div_eq_of_lt hr, Nat.add_zero]

theorem rowOf_slotId (h : format.Valid) {chunk row : Nat} (hc : chunk < format.maxChunks)
    (hr : row < format.rowsPerChunk) : format.rowOf (format.slotId chunk row) = row := by
  unfold rowOf
  rw [toNat_slotId h hc hr, Nat.mul_comm, Nat.mul_add_mod, Nat.mod_eq_of_lt hr]

theorem rowOf_lt (format : IdFormat) (id : SlotId) : format.rowOf id < format.rowsPerChunk :=
  Nat.mod_lt _ (rowsPerChunk_pos format)

/-- Ids name slots one to one. -/
theorem slotId_inj (h : format.Valid) {chunk row chunk' row' : Nat}
    (hc : chunk < format.maxChunks) (hr : row < format.rowsPerChunk)
    (hc' : chunk' < format.maxChunks) (hr' : row' < format.rowsPerChunk)
    (heq : format.slotId chunk row = format.slotId chunk' row') : chunk = chunk' ∧ row = row' := by
  constructor
  · rw [← chunkOf_slotId h hc hr, heq, chunkOf_slotId h hc' hr']
  · rw [← rowOf_slotId h hc hr, heq, rowOf_slotId h hc' hr']

end

end IdFormat

/-! ### Flags -/

namespace SlotId

theorem isPlain_iff (id : SlotId) : id.isPlain = true ↔ id.toNat < 1 <<< 30 := decide_eq_true_iff

theorem not_isDetached_of_isPlain {id : SlotId} (h : id.isPlain = true) :
    id.isDetached = false := by
  rw [isPlain_iff] at h
  simp only [isDetached, detachedBit, Nat.reduceShiftLeft, beq_eq_false_iff_ne] at h ⊢
  omega

theorem not_isReserved_of_isPlain {id : SlotId} (h : id.isPlain = true) :
    id.isReserved = false := by
  rw [isPlain_iff] at h
  simp only [isReserved, reservedBit, Nat.reduceShiftLeft, beq_eq_false_iff_ne] at h ⊢
  omega

/-- The detached flag alone is no plain id, so the free stack takes every plain id. -/
theorem ne_marker_of_isPlain {id : SlotId} (h : id.isPlain = true) :
    id ≠ UInt32.ofNat detachedBit := by
  rintro rfl
  exact absurd h (by decide)

@[simp] theorem isDetached_detach (id : SlotId) : id.detach.isDetached = true := by
  have hid := id.toNat_lt
  by_cases h : id.isDetached = true
  · simp [detach, h]
  · simp only [detach, h, Bool.false_eq_true, if_false]
    simp only [isDetached, detachedBit, Nat.reduceShiftLeft, beq_iff_eq] at h ⊢
    rw [UInt32.toNat_ofNat_of_lt' (by simp only [UInt32.size]; omega)]
    omega

theorem toNat_place (id : SlotId) : id.place.toNat = id.toNat % (1 <<< placeBits) := by
  have hlt : id.toNat % (1 <<< placeBits) < 1 <<< placeBits :=
    Nat.mod_lt _ (by decide)
  refine UInt32.toNat_ofNat_of_lt' (Nat.lt_trans hlt ?_)
  decide

/-- A moved item is at its new place and keeps its flags. -/
theorem toNat_relocate (current new : SlotId) :
    (SlotId.relocate current new).toNat = new.toNat % (1 <<< placeBits) + current.flags := by
  have hcur := current.toNat_lt
  unfold relocate
  refine UInt32.toNat_ofNat_of_lt' ?_
  simp only [UInt32.size, flags, placeBits, Nat.reduceShiftLeft]
  omega

theorem place_relocate (current new : SlotId) :
    (SlotId.relocate current new).place = new.place := by
  unfold place
  rw [toNat_relocate]
  congr 1
  simp only [flags, placeBits, Nat.reduceShiftLeft]
  omega

theorem flags_relocate (current new : SlotId) :
    (SlotId.relocate current new).flags = current.flags := by
  have hnew : new.toNat % (1 <<< placeBits) < 1 <<< placeBits := Nat.mod_lt _ (by decide)
  rw [flags, toNat_relocate]
  simp only [flags, placeBits, Nat.reduceShiftLeft] at hnew ⊢
  omega

theorem place_of_isPlain {id : SlotId} (h : id.isPlain = true) : id.place = id := by
  rw [isPlain_iff] at h
  rw [place, placeBits, Nat.mod_eq_of_lt h, UInt32.ofNat_toNat]

/-- An item without flags takes a plain id as it is. -/
theorem relocate_of_isPlain {current new : SlotId} (hcur : current.isPlain = true)
    (hnew : new.isPlain = true) : SlotId.relocate current new = new := by
  rw [isPlain_iff] at hcur hnew
  apply UInt32.toNat_inj.mp
  simp only [relocate, flags, placeBits, Nat.mod_eq_of_lt hnew, Nat.div_eq_of_lt hcur,
    Nat.zero_mul, Nat.add_zero]
  exact UInt32.toNat_ofNat_of_lt' (by simp only [UInt32.size]; omega)

end SlotId

/-! ### Flags are not read -/

namespace IdFormat

variable {format : IdFormat}

theorem chunkOf_place (format : IdFormat) (id : SlotId) :
    format.chunkOf id.place = format.chunkOf id := by
  rw [chunkOf, chunkOf, SlotId.toNat_place, Nat.mod_mod]

/-- A chunk has no more rows than there are places, so the row is read off the place. -/
theorem rowOf_eq_mod_place (h : format.Valid) (id : SlotId) :
    format.rowOf id = id.toNat % (1 <<< SlotId.placeBits) % format.rowsPerChunk := by
  have hdvd : format.rowsPerChunk ∣ 1 <<< SlotId.placeBits := by
    rw [rowsPerChunk, Nat.one_shiftLeft, Nat.one_shiftLeft]
    exact Nat.pow_dvd_pow 2 (Nat.le_trans h.rowBits_le (by decide))
  rw [Nat.mod_mod_of_dvd _ hdvd, rowOf]

theorem rowOf_place (h : format.Valid) (id : SlotId) : format.rowOf id.place = format.rowOf id := by
  rw [rowOf_eq_mod_place h, rowOf_eq_mod_place h, SlotId.toNat_place, Nat.mod_mod]

/-- The place of an id is the id of the slot that it names. -/
theorem place_eq_slotId (h : format.Valid) (id : SlotId) :
    id.place = format.slotId (format.chunkOf id) (format.rowOf id) := by
  rw [slotId, Nat.mod_eq_of_lt (rowOf_lt format id), rowOf_eq_mod_place h, chunkOf,
    Nat.div_add_mod']
  rfl

end IdFormat

end ArchetypeStore

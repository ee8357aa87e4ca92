import ArchetypeStore.Proofs.SlotId
import ArchetypeStore.RowStore.Basic

/-! # Bits of slot ids

  The low bits of an id are the number of the row, the bits above them the number of the
  chunk, and the two highest bits are the flags. Each operation on ids is described by the
  bits of its result: packing puts two numbers side by side, setting a flag changes one bit,
  and moving an item takes the low bits of one word and the high bits of another.

  So ids and pairs of chunk and row correspond one to one, in the order of the pairs, and no
  operation on the flags can be seen in the pair.
-/

namespace ArchetypeStore

/-! ### Operations on one word -/

namespace SlotId

/-- A bit of an id, the lowest one having number 0. -/
def bit (id : SlotId) (i : Nat) : Bool := id.toNat.testBit i

theorem bit_of_ge (id : SlotId) {i : Nat} (h : 32 ≤ i) : id.bit i = false := by
  have hlt : id.toNat < 2 ^ i :=
    Nat.lt_of_lt_of_le id.toNat_lt (Nat.pow_le_pow_right (by decide) h)
  exact Nat.testBit_lt_two_pow hlt

theorem eq_of_bit_eq {id id' : SlotId} (h : ∀ i, id.bit i = id'.bit i) : id = id' :=
  UInt32.toNat_inj.mp (Nat.eq_of_testBit_eq h)

theorem isDetached_eq_bit (id : SlotId) : id.isDetached = id.bit 31 := by
  rw [bit, Nat.testBit_eq_decide_div_mod_eq]
  rfl

theorem isReserved_eq_bit (id : SlotId) : id.isReserved = id.bit 30 := by
  rw [bit, Nat.testBit_eq_decide_div_mod_eq]
  rfl

theorem bit_place (id : SlotId) (i : Nat) :
    id.place.bit i = (decide (i < 30) && id.bit i) := by
  rw [bit, toNat_place, placeBits, Nat.one_shiftLeft, Nat.testBit_mod_two_pow, bit]

/-- Adding a power of two to a number without this bit sets the bit. -/
theorem testBit_add_one_shiftLeft {n k : Nat} (hclear : n.testBit k = false) (i : Nat) :
    (n + 1 <<< k).testBit i = (decide (i = k) || n.testBit i) := by
  rw [Nat.testBit_eq_decide_div_mod_eq, decide_eq_false_iff_not] at hclear
  rw [Nat.one_shiftLeft]
  -- The number is split where the bit stands, so nothing is carried.
  have hlow : n % 2 ^ k < 2 ^ k := Nat.mod_lt _ (Nat.two_pow_pos k)
  have hsplit : n = 2 ^ k * (n / 2 ^ k) + n % 2 ^ k := (Nat.div_add_mod ..).symm
  have hsum : n + 2 ^ k = 2 ^ k * (n / 2 ^ k + 1) + n % 2 ^ k := by
    rw [Nat.mul_add, Nat.mul_one]
    omega
  generalize n / 2 ^ k = high at *
  generalize n % 2 ^ k = low at *
  rw [hsum, hsplit, Nat.testBit_two_pow_mul_add _ hlow, Nat.testBit_two_pow_mul_add _ hlow]
  rcases Nat.lt_trichotomy i k with hlt | heq | hgt
  · simp [hlt, Nat.ne_of_lt hlt]
  · subst heq
    have hodd : (high + 1) % 2 = 1 := by omega
    simp [Nat.testBit_zero, hodd]
  · obtain ⟨m, rfl⟩ := Nat.exists_eq_add_of_lt hgt
    have hhalf : (high + 1) / 2 = high / 2 := by omega
    have hsub : k + m + 1 - k = m + 1 := by omega
    have hne : ¬ k + m + 1 = k := by omega
    have hnlt : ¬ k + m + 1 < k := by omega
    simp only [hnlt, if_false, hsub, Nat.testBit_succ, hhalf, hne, decide_false, Bool.false_or]

/-- A bit is set by adding its power of two, unless it is set already. -/
theorem bit_add {k : Nat} (hk : k < 32) (id : SlotId) (i : Nat) :
    (if id.bit k then id else UInt32.ofNat (id.toNat + 1 <<< k)).bit i =
      (decide (i = k) || id.bit i) := by
  split
  · rename_i hset
    by_cases hi : i = k
    · simp [hi, hset]
    · simp [hi]
  · rename_i hclear
    have hsum := testBit_add_one_shiftLeft (Bool.of_not_eq_true hclear)
    -- Nothing is carried out of the word.
    have hroom : id.toNat + 1 <<< k < 2 ^ 32 := by
      apply Nat.lt_pow_two_of_testBit
      intro j hj
      have hne : j ≠ k := by omega
      have hbit := id.bit_of_ge hj
      rw [hsum, decide_eq_false hne, Bool.false_or]
      exact hbit
    rw [bit, UInt32.toNat_ofNat_of_lt' hroom]
    exact hsum i

theorem bit_reserve (id : SlotId) (i : Nat) :
    id.reserve.bit i = (decide (i = 30) || id.bit i) := by
  rw [reserve, isReserved_eq_bit]
  exact bit_add (by decide) id i

theorem bit_detach (id : SlotId) (i : Nat) :
    id.detach.bit i = (decide (i = 31) || id.bit i) := by
  rw [detach, isDetached_eq_bit]
  exact bit_add (by decide) id i

/-- The high bits are no part of the place. -/
theorem place_eq_of_bit {id id' : SlotId} {k : Nat} (hk : 30 ≤ k)
    (h : ∀ i, id'.bit i = (decide (i = k) || id.bit i)) : id'.place = id.place := by
  apply eq_of_bit_eq
  intro i
  rw [bit_place, bit_place, h]
  by_cases hi : i < 30
  · have hne : i ≠ k := by omega
    simp [hne]
  · simp [hi]

theorem place_reserve (id : SlotId) : id.reserve.place = id.place :=
  place_eq_of_bit (by decide) id.bit_reserve

theorem place_detach (id : SlotId) : id.detach.place = id.place :=
  place_eq_of_bit (by decide) id.bit_detach

/-- A moved item has the low bits of its new id and the high bits of its old one. -/
theorem bit_relocate (current new : SlotId) (i : Nat) :
    (SlotId.relocate current new).bit i = if i < 30 then new.bit i else current.bit i := by
  have hlow : new.toNat % 2 ^ 30 < 2 ^ 30 := Nat.mod_lt _ (Nat.two_pow_pos 30)
  rw [bit, toNat_relocate, flags, placeBits, Nat.one_shiftLeft, Nat.add_comm, Nat.mul_comm,
    Nat.testBit_two_pow_mul_add _ hlow]
  split
  · rename_i hi
    rw [Nat.testBit_mod_two_pow, decide_eq_true hi, Bool.true_and, bit]
  · rename_i hi
    rw [Nat.testBit_div_two_pow, Nat.sub_add_cancel (by omega), bit]

/-- The two flags and no other bits. -/
def flagMask : SlotId := UInt32.ofNat (detachedBit + reservedBit)

theorem bit_flagMask {i : Nat} (hi : i < 32) : flagMask.bit i = decide (30 ≤ i) := by
  have hall : ∀ i, i < 32 → flagMask.bit i = decide (30 ≤ i) := by decide
  exact hall i hi

theorem bit_and (id id' : SlotId) (i : Nat) : (id &&& id').bit i = (id.bit i && id'.bit i) := by
  rw [bit, UInt32.toNat_and, Nat.testBit_and, bit, bit]

theorem bit_or (id id' : SlotId) (i : Nat) : (id ||| id').bit i = (id.bit i || id'.bit i) := by
  rw [bit, UInt32.toNat_or, Nat.testBit_or, bit, bit]

/-- Moving puts two words together of which the flags are cut out of one. -/
theorem relocate_eq_or (current new : SlotId) :
    SlotId.relocate current new = new.place ||| (current &&& flagMask) := by
  apply eq_of_bit_eq
  intro i
  rw [bit_relocate, bit_or, bit_place, bit_and]
  rcases Nat.lt_or_ge i 32 with hi | hi
  · rw [bit_flagMask hi]
    by_cases hlow : i < 30
    · have hnot : ¬ 30 ≤ i := by omega
      simp [hlow, hnot]
    · have hge : 30 ≤ i := by omega
      simp [hlow, hge]
  · have hnot : ¬ i < 30 := by omega
    simp [bit_of_ge _ hi, hnot]

end SlotId

/-! ### Chunk and row -/

namespace IdFormat

variable {format : IdFormat} {chunk row chunk' row' : Nat}

/-- The row fills the low bits, and the chunk the bits above them. -/
theorem bit_slotId (h : format.Valid) (hc : chunk < format.maxChunks)
    (hr : row < format.rowsPerChunk) (i : Nat) :
    (format.slotId chunk row).bit i =
      if i < format.rowBits then row.testBit i else chunk.testBit (i - format.rowBits) := by
  rw [rowsPerChunk, Nat.one_shiftLeft] at hr
  rw [SlotId.bit, toNat_slotId h hc (by rwa [rowsPerChunk, Nat.one_shiftLeft]), rowsPerChunk,
    Nat.one_shiftLeft, Nat.mul_comm, Nat.testBit_two_pow_mul_add _ hr]

/-- Whatever its flags, an id at the place of a slot names the slot. -/
theorem parts_of_place (h : format.Valid) (hc : chunk < format.maxChunks)
    (hr : row < format.rowsPerChunk) {id : SlotId}
    (hplace : id.place = format.slotId chunk row) :
    format.chunkOf id = chunk ∧ format.rowOf id = row := by
  constructor
  · rw [← chunkOf_place, hplace, chunkOf_slotId h hc hr]
  · rw [← rowOf_place h, hplace, rowOf_slotId h hc hr]

/-- Ids ascend with the chunk first and the row second. -/
theorem slotId_lt_iff (h : format.Valid) (hc : chunk < format.maxChunks)
    (hr : row < format.rowsPerChunk) (hc' : chunk' < format.maxChunks)
    (hr' : row' < format.rowsPerChunk) :
    format.slotId chunk row < format.slotId chunk' row' ↔
      chunk < chunk' ∨ chunk = chunk' ∧ row < row' := by
  rw [UInt32.lt_iff_toNat_lt, toNat_slotId h hc hr, toNat_slotId h hc' hr']
  -- The slots of a chunk end before those of the next one begin.
  have hmul : ∀ {a b : Nat}, a < b →
      a * format.rowsPerChunk + format.rowsPerChunk ≤ b * format.rowsPerChunk := by
    intro a b hab
    rw [← Nat.succ_mul]
    exact Nat.mul_le_mul_right _ hab
  rcases Nat.lt_trichotomy chunk chunk' with hlt | rfl | hgt
  · have := hmul hlt
    omega
  · omega
  · have := hmul hgt
    omega

end IdFormat

/-! ### Items -/

namespace RowStore

variable {T V : Type}

/-- Change the id word of an item in one step, given the word that is there. -/
def updateId (s : RowStore T V) (item : Nat) (f : SlotId → SlotId) : RowStore T V :=
  s.setId item (f (s.idOf item))

/-- What a move of an item to a new id leaves of the id words. -/
structure Relocated (s s' : RowStore T V) (item : Nat) (new : SlotId) : Prop where
  /-- The low bits are those of the new id, and the flags stay. -/
  bits : item < s.ids.size → ∀ i,
    (s'.idOf item).bit i = if i < 30 then new.bit i else (s.idOf item).bit i
  others : ∀ other, other ≠ item → s'.idOf other = s.idOf other

theorem relocate_relocated (s : RowStore T V) (item : Nat) (new : SlotId) :
    Relocated s (s.relocate item new) item new := by
  refine ⟨fun hitem i => ?_, fun other hne => ?_⟩
  · have hid : (s.relocate item new).idOf item = SlotId.relocate (s.idOf item) new := by
      rw [relocate, setId, idOf, Array.getElem?_setIfInBounds_self_of_lt hitem]
      rfl
    rw [hid, SlotId.bit_relocate]
  · rw [relocate, setId, idOf, Array.getElem?_setIfInBounds_ne (Ne.symm hne)]
    rfl

end RowStore

/-! ### Packing -/

namespace IdFormat

/-- Packing is one to one between the slots and the ids of the chunks there may be, it keeps
their order, and flags and places leave each other alone. -/
structure Packs (format : IdFormat) : Prop where
  /-- Row and chunk stand side by side, and both flags are clear. -/
  bits : ∀ chunk < format.maxChunks, ∀ row < format.rowsPerChunk,
    (∀ i, (format.slotId chunk row).bit i =
      if i < format.rowBits then row.testBit i else chunk.testBit (i - format.rowBits)) ∧
    (format.slotId chunk row).isDetached = false ∧ (format.slotId chunk row).isReserved = false
  /-- Both parts are read back, whichever flags are set by then. -/
  unpack : ∀ chunk < format.maxChunks, ∀ row < format.rowsPerChunk,
    ∀ id ∈ [format.slotId chunk row, (format.slotId chunk row).reserve,
      (format.slotId chunk row).detach, (format.slotId chunk row).reserve.detach],
      format.chunkOf id = chunk ∧ format.rowOf id = row
  /-- To set a flag is to set one bit. -/
  flags : ∀ (id : SlotId) i, id.reserve.bit i = (decide (i = 30) || id.bit i) ∧
    id.detach.bit i = (decide (i = 31) || id.bit i)
  /-- The parts of an id pack into the id without its flags. -/
  repack : ∀ id, format.chunkOf id < format.maxChunks →
    format.slotId (format.chunkOf id) (format.rowOf id) = id.place ∧
      ∀ i, id.place.bit i = (decide (i < 30) && id.bit i)
  distinct : ∀ chunk < format.maxChunks, ∀ row < format.rowsPerChunk,
    ∀ chunk' < format.maxChunks, ∀ row' < format.rowsPerChunk,
      format.slotId chunk row = format.slotId chunk' row' → chunk = chunk' ∧ row = row'
  ascending : ∀ chunk < format.maxChunks, ∀ row < format.rowsPerChunk,
    ∀ chunk' < format.maxChunks, ∀ row' < format.rowsPerChunk,
      (format.slotId chunk row < format.slotId chunk' row' ↔
        chunk < chunk' ∨ chunk = chunk' ∧ row < row')

theorem Valid.packs {format : IdFormat} (h : format.Valid) : format.Packs := by
  refine ⟨?_, ?_, fun id i => ⟨id.bit_reserve i, id.bit_detach i⟩, ?_, ?_, ?_⟩
  · intro chunk hc row hr
    have hplain := slotId_isPlain h hc hr
    exact ⟨bit_slotId h hc hr, SlotId.not_isDetached_of_isPlain hplain,
      SlotId.not_isReserved_of_isPlain hplain⟩
  · intro chunk hc row hr id hid
    have hplace := SlotId.place_of_isPlain (slotId_isPlain h hc hr)
    apply parts_of_place h hc hr
    simp only [List.mem_cons, List.not_mem_nil, or_false] at hid
    rcases hid with rfl | rfl | rfl | rfl
    · exact hplace
    · rw [SlotId.place_reserve, hplace]
    · rw [SlotId.place_detach, hplace]
    · rw [SlotId.place_detach, SlotId.place_reserve, hplace]
  · intro id _
    exact ⟨(place_eq_slotId h id).symm, id.bit_place⟩
  · intro chunk hc row hr chunk' hc' row' hr' heq
    exact slotId_inj h hc hr hc' hr' heq
  · intro chunk hc row hr chunk' hc' row' hr'
    exact slotId_lt_iff h hc hr hc' hr'

/-- Every format that can be made packs slots into ids one to one, and an item that moves
keeps its flags, whether its id word is read and then written or changed in one step. -/
theorem create_packs {rowBits : Nat} {limit : Option Nat} {format : IdFormat}
    (h : create rowBits limit = .ok format) :
    format.Packs ∧ ∀ {T V : Type} (s : RowStore T V) (item : Nat) (new : SlotId),
      s.Relocated (s.relocate item new) item new ∧
        s.Relocated (s.updateId item fun current =>
          new.place ||| (current &&& SlotId.flagMask)) item new := by
  refine ⟨(create_valid h).packs, fun s item new => ?_⟩
  have hmove := s.relocate_relocated item new
  refine ⟨hmove, ?_⟩
  -- Both ways of moving write the same word.
  rw [RowStore.updateId, ← SlotId.relocate_eq_or]
  exact hmove

/-- With rows of two bits the last slot of the last chunk has the greatest id there is. -/
theorem create_packs_narrow :
    create 2 none = .ok ⟨2, 1 <<< 28⟩ ∧
      (⟨2, 1 <<< 28⟩ : IdFormat).slotId ((1 <<< 28) - 1) 3 = UInt32.ofNat ((1 <<< 30) - 1) ∧
      (⟨2, 1 <<< 28⟩ : IdFormat).Packs := by
  have hformat : create 2 none = .ok ⟨2, 1 <<< 28⟩ := rfl
  exact ⟨hformat, by decide, (create_packs hformat).1⟩

end IdFormat

end ArchetypeStore

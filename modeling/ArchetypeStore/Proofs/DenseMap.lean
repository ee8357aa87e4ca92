import ArchetypeStore.DenseMap
import ArchetypeStore.Proofs.CountingSort

/-! # A dense map as a list of entries

  In a well-formed map the position array and the key array are inverse to each other. The
  map is then a list of entries with distinct keys, and a new key goes to its end. There are
  fewer keys than 32-bit words, so that every position is a word other than the one for keys
  that are absent.
-/

namespace ArchetypeStore.DenseMap

variable {V : Type} {m : DenseMap V}

/-! ### Positions as words -/

theorem bind_unpack_replicate (n key : Nat) :
    (Array.replicate n absent)[key]?.bind unpack = none := by
  rw [Array.getElem?_replicate]
  split <;> rfl

/-- A word has room for every position below the last one. -/
theorem unpack_ofNat {pos : Nat} (h : pos + 1 < UInt32.size) :
    unpack (UInt32.ofNat pos) = some pos := by
  have hword : (UInt32.ofNat pos).toNat = pos := UInt32.toNat_ofNat_of_lt' (Nat.lt_of_succ_lt h)
  have hne : UInt32.ofNat pos ≠ absent := by
    intro heq
    rw [heq] at hword
    have habsent : absent.toNat = UInt32.size - 1 := rfl
    omega
  rw [unpack, if_neg hne, hword]

/-! ### Looking up -/

theorem get?_eq (m : DenseMap V) (key : Nat) :
    m.get? key = (m.position? key).bind fun pos => m.values[pos]? := rfl

/-! ### Well-formed maps -/

/-- Keys and values lie side by side, and every key knows its position. -/
structure Wf (m : DenseMap V) : Prop where
  size_eq : m.keys.size = m.values.size
  size_lt : m.keys.size < UInt32.size
  position_iff : ∀ key pos, m.position? key = some pos ↔ m.keys[pos]? = some key

theorem withCapacity_wf (keyCapacity : Nat) : (withCapacity keyCapacity : DenseMap V).Wf := by
  refine ⟨rfl, Nat.zero_lt_succ _, fun key pos => ?_⟩
  unfold position? withCapacity
  rw [bind_unpack_replicate]
  simp

theorem room_withCapacity (keyCapacity : Nat) :
    (withCapacity keyCapacity : DenseMap V).keys.size + 1 < UInt32.size := by
  have hpair : 1 < UInt32.size := by decide
  exact hpair

@[simp] theorem toList_withCapacity (keyCapacity : Nat) :
    (withCapacity keyCapacity : DenseMap V).toList = [] := rfl

namespace Wf

variable (h : m.Wf)

include h

theorem lt_of_position {key pos : Nat} (hpos : m.position? key = some pos) :
    pos < m.keys.size :=
  (Array.getElem?_eq_some_iff.mp ((h.position_iff key pos).mp hpos)).1

theorem position_inj {key key' pos : Nat} (hpos : m.position? key = some pos)
    (hpos' : m.position? key' = some pos) : key = key' := by
  rw [h.position_iff] at hpos hpos'
  exact Option.some.inj (hpos.symm.trans hpos')

theorem index_inj {i j key : Nat} (hi : m.keys[i]? = some key) (hj : m.keys[j]? = some key) :
    i = j := by
  rw [← h.position_iff] at hi hj
  exact Option.some.inj (hi.symm.trans hj)

theorem contains_iff (key : Nat) : m.contains key = true ↔ key ∈ m.keys.toList := by
  rw [contains, Option.isSome_iff_exists]
  constructor
  · rintro ⟨pos, hpos⟩
    have hget := (h.position_iff key pos).mp hpos
    rw [← Array.getElem?_toList] at hget
    exact List.mem_of_getElem? hget
  · intro hmem
    obtain ⟨pos, hpos⟩ := List.getElem?_of_mem hmem
    rw [Array.getElem?_toList] at hpos
    exact ⟨pos, (h.position_iff key pos).mpr hpos⟩

theorem keys_nodup : m.keys.toList.Nodup := by
  rw [List.Nodup, List.pairwise_iff_getElem]
  intro i j hi hj hij heq
  -- A key that is listed twice would have two positions.
  have hkey : ∀ k (hk : k < m.keys.toList.length), m.keys[k]? = some m.keys.toList[k] := by
    intro k hk
    rw [← Array.getElem?_toList, List.getElem?_eq_getElem hk]
  have := h.index_inj (heq ▸ hkey i hi) (hkey j hj)
  omega

theorem keys_toList : m.toList.map (·.1) = m.keys.toList := by
  rw [toList, List.map_fst_zip]
  simpa using Nat.le_of_eq h.size_eq

theorem values_toList : m.toList.map (·.2) = m.values.toList := by
  rw [toList, List.map_snd_zip]
  simpa using Nat.le_of_eq h.size_eq.symm

theorem length_toList : m.toList.length = m.size := by
  rw [toList, List.length_zip, size]
  have := h.size_eq
  simp only [Array.length_toList]
  omega

/-- Every entry stands at the position of its key. -/
theorem get?_eq_some_iff (key : Nat) (value : V) :
    m.get? key = some value ↔ (key, value) ∈ m.toList := by
  rw [get?_eq, Option.bind_eq_some_iff]
  constructor
  · rintro ⟨pos, hpos, hvalue⟩
    apply List.mem_of_getElem? (i := pos)
    rw [toList, List.getElem?_zip_eq_some, Array.getElem?_toList, Array.getElem?_toList]
    exact ⟨(h.position_iff key pos).mp hpos, hvalue⟩
  · intro hmem
    obtain ⟨pos, hpos⟩ := List.getElem?_of_mem hmem
    rw [toList, List.getElem?_zip_eq_some, Array.getElem?_toList, Array.getElem?_toList] at hpos
    exact ⟨pos, (h.position_iff key pos).mpr hpos.1, hpos.2⟩

/-- Positions are prepared for every key. -/
theorem key_lt {key : Nat} (hkey : key ∈ m.keys.toList) : key < m.positions.size := by
  rw [← h.contains_iff, contains, Option.isSome_iff_exists] at hkey
  obtain ⟨pos, hpos⟩ := hkey
  apply Nat.lt_of_not_le
  intro hle
  rw [position?, Array.getElem?_eq_none hle] at hpos
  cases hpos

/-- The keys in ascending order. -/
theorem sortedKeys_spec : m.sortedKeys.Perm m.keys.toList ∧ m.sortedKeys.Pairwise (· < ·) := by
  obtain ⟨sorted, hsort⟩ := CountingSort.sort_of_nodup h.keys_nodup fun v hv => h.key_lt hv
  obtain ⟨-, hperm, hascending⟩ := CountingSort.sort_ok hsort
  rw [sortedKeys, hsort]
  exact ⟨hperm, hascending⟩

/-- Maps with the same keys have them in one ascending order. -/
theorem sortedKeys_congr {W : Type} {m' : DenseMap W} (h' : m'.Wf)
    (hperm : m.keys.toList.Perm m'.keys.toList) : m.sortedKeys = m'.sortedKeys := by
  obtain ⟨hp, hascending⟩ := h.sortedKeys_spec
  obtain ⟨hp', hascending'⟩ := h'.sortedKeys_spec
  apply DenseSet.eq_of_ascending hascending hascending'
  intro key
  exact ((hp.trans hperm).trans hp'.symm).mem_iff

end Wf

theorem contains_withCapacity (keyCapacity key : Nat) :
    (withCapacity keyCapacity : DenseMap V).contains key = false := by
  rw [← Bool.not_eq_true, (withCapacity_wf keyCapacity).contains_iff]
  exact List.not_mem_nil

/-! ### Insertion -/

/-- A key that is there makes the answer of an insertion its old value. -/
theorem insert_of_contains (h : m.Wf) {key : Nat} (hkey : m.contains key = true) (value : V) :
    ∃ old, (m.insert key value).1 = some old := by
  rw [contains, Option.isSome_iff_exists] at hkey
  obtain ⟨pos, hpos⟩ := hkey
  have hlt : pos < m.values.size := by
    rw [← h.size_eq]
    exact h.lt_of_position hpos
  refine ⟨m.values[pos], ?_⟩
  simp only [insert, hpos]
  exact Array.getElem?_eq_getElem hlt

/-- Growing the positions changes none of them. -/
theorem bind_unpack_grow (m : DenseMap V) (key k : Nat) :
    (grow m.positions key)[k]?.bind unpack = m.position? k := by
  rw [grow, Array.getElem?_append, position?]
  split
  · rfl
  · rename_i hk
    rw [Array.getElem?_eq_none (Nat.le_of_not_lt hk), bind_unpack_replicate]
    rfl

theorem lt_size_grow (positions : Array UInt32) (key : Nat) :
    key < (grow positions key).size := by
  simp only [grow, Array.size_append, Array.size_replicate]
  omega

theorem insert_of_absent {key : Nat} (hnone : m.position? key = none) (value : V) :
    m.insert key value = (none,
      ⟨(grow m.positions key).setIfInBounds key (UInt32.ofNat m.keys.size), m.keys.push key,
        m.values.push value⟩) := by
  simp only [insert, hnone]

/-- A new key has the position behind the last one, as far as words go. -/
theorem position?_insert_of_absent {key : Nat} (hnone : m.position? key = none) (value : V)
    (k : Nat) : (m.insert key value).2.position? k =
      if k = key then unpack (UInt32.ofNat m.keys.size) else m.position? k := by
  rw [insert_of_absent hnone, position?]
  by_cases hk : k = key
  · subst hk
    rw [if_pos rfl, Array.getElem?_setIfInBounds_self_of_lt (lt_size_grow ..), Option.bind_some]
  · rw [if_neg hk, Array.getElem?_setIfInBounds_ne (Ne.symm hk), bind_unpack_grow]

/-- A new key goes behind all others. -/
theorem insert_of_new (h : m.Wf) {key : Nat} (hkey : m.contains key = false)
    (hroom : m.keys.size + 1 < UInt32.size) (value : V) :
    (m.insert key value).1 = none ∧ (m.insert key value).2.Wf ∧
      (m.insert key value).2.keys = m.keys.push key ∧
        (m.insert key value).2.toList = m.toList ++ [(key, value)] := by
  have hnone : m.position? key = none := by
    simpa [contains] using hkey
  have hposition := position?_insert_of_absent hnone value
  rw [insert_of_absent hnone] at hposition ⊢
  refine ⟨rfl, ⟨?_, ?_, fun k pos => ?_⟩, rfl, ?_⟩
  · rw [Array.size_push, Array.size_push, h.size_eq]
  · rw [Array.size_push]
    exact hroom
  · rw [hposition, Array.getElem?_push]
    by_cases hk : k = key
    · subst hk
      rw [if_pos rfl, unpack_ofNat hroom]
      constructor
      · intro hpos
        cases hpos
        rw [if_pos rfl]
      · intro hpos
        split at hpos
        · rename_i heq
          rw [heq]
        · rw [← h.position_iff, hnone] at hpos
          cases hpos
    · rw [if_neg hk, h.position_iff]
      split
      · rename_i heq
        subst heq
        rw [Array.getElem?_eq_none (Nat.le_refl _)]
        simp [Ne.symm hk]
      · rfl
  · simp only [toList, Array.toList_push]
    rw [List.zip_append (by simpa using h.size_eq)]
    rfl

end ArchetypeStore.DenseMap

import ArchetypeStore.DenseSet

/-! # A bit set as a set of numbers

  Bit `i % 64` of word `i / 64` stands for number `i`. Inserting a number changes this bit
  and no other, and the members are read off in ascending order.
-/

namespace ArchetypeStore.DenseSet

/-! ### Words -/

theorem toNat_bitWord {b : Nat} (hb : b < 64) : (bitWord b).toNat = 1 <<< b := by
  have hpow : 2 ^ b < 2 ^ 64 := Nat.pow_lt_pow_right (by decide) hb
  have hsize : b < UInt64.size := by
    simp only [UInt64.size]
    omega
  rw [bitWord, UInt64.toNat_shiftLeft, UInt64.toNat_ofNat_of_lt' hsize, Nat.mod_eq_of_lt hb,
    UInt64.toNat_one, Nat.one_shiftLeft, Nat.mod_eq_of_lt hpow]

theorem wordHas_or_bitWord (word : UInt64) {b : Nat} (hb : b < 64) (j : Nat) :
    wordHas (word ||| bitWord b) j = (wordHas word j || decide (j = b)) := by
  rw [wordHas, wordHas, UInt64.toNat_or, Nat.testBit_or, toNat_bitWord hb,
    Nat.one_shiftLeft, Nat.testBit_two_pow]
  simp only [eq_comm]

theorem mem_wordMembers {word : UInt64} {b : Nat} :
    b ∈ wordMembers word ↔ b < 64 ∧ wordHas word b = true := by
  simp [wordMembers, wordBits]

theorem wordMembers_ascending (word : UInt64) : (wordMembers word).Pairwise (· < ·) :=
  List.pairwise_lt_range.filter _

/-! ### Membership -/

/-- Every number below the capacity has a bit. -/
def Roomy (s : DenseSet) : Prop := s.capacity ≤ s.words.size * wordBits

theorem roomy_withCapacity (capacity : Nat) : (withCapacity capacity).Roomy := by
  simp only [Roomy, withCapacity, wordBits, Array.size_replicate]
  omega

theorem roomy_clear {s : DenseSet} (h : s.Roomy) : s.clear.Roomy := by
  simpa [Roomy, clear] using h

@[simp] theorem capacity_clear (s : DenseSet) : s.clear.capacity = s.capacity := rfl

/-- After a removal of all members there is none. -/
@[simp] theorem contains_clear (s : DenseSet) (i : Nat) : s.clear.contains i = false := by
  unfold contains clear
  rw [Array.getElem?_map]
  cases s.words[i / wordBits]? with
  | none => rfl
  | some word => simp [wordHas]

theorem insert_error {s : DenseSet} {i : Nat} {fault : Fault} (h : s.insert i = .error fault) :
    s.capacity ≤ i := by
  unfold insert at h
  split at h
  · cases h
  · omega

theorem insert_ok {s s' : DenseSet} (hroomy : s.Roomy) {i : Nat} {fresh : Bool}
    (h : s.insert i = .ok (fresh, s')) :
    i < s.capacity ∧ fresh = !s.contains i ∧ s'.Roomy ∧ s'.capacity = s.capacity ∧
      ∀ j, s'.contains j = (s.contains j || decide (j = i)) := by
  unfold insert at h
  split at h
  · rename_i hi
    cases h
    have hword : i / wordBits < s.words.size := by
      unfold Roomy wordBits at hroomy
      unfold wordBits
      omega
    have hbit : i % wordBits < 64 := Nat.mod_lt _ (by decide)
    refine ⟨hi, rfl, ?_, rfl, fun j => ?_⟩
    · simpa [Roomy] using hroomy
    · unfold contains
      rw [Array.getElem?_modify]
      -- Numbers of other words are not touched; in the word of `i` one bit is.
      by_cases hj : j / wordBits = i / wordBits
      · rw [if_pos hj.symm, hj, Array.getElem?_eq_getElem hword]
        simp only [Option.map_some, wordHas_or_bitWord _ hbit]
        have hiff : j % wordBits = i % wordBits ↔ j = i := by
          unfold wordBits at hj ⊢
          omega
        simp only [hiff]
      · have hne : j ≠ i := fun heq => hj (by rw [heq])
        rw [if_neg (Ne.symm hj)]
        simp [hne]
  · cases h

/-! ### Members in order -/

/-- There is one way to list the same numbers in ascending order. -/
theorem eq_of_ascending {l l' : List Nat} (h : l.Pairwise (· < ·)) (h' : l'.Pairwise (· < ·))
    (hmem : ∀ i, i ∈ l ↔ i ∈ l') : l = l' := by
  have hperm : l.Perm l' :=
    (List.perm_ext_iff_of_nodup (h.imp Nat.ne_of_lt) (h'.imp Nat.ne_of_lt)).mpr hmem
  apply hperm.eq_of_pairwise _ h h'
  intro a b _ _ hab hba
  omega

theorem mem_toListFrom {start i : Nat} {words : List UInt64} :
    i ∈ toListFrom start words ↔ start ≤ i / 64 ∧
      ∃ word, words[i / 64 - start]? = some word ∧ wordHas word (i % 64) = true := by
  induction words generalizing start with
  | nil => simp [toListFrom]
  | cons word rest ih =>
    rw [toListFrom, List.mem_append, ih, List.mem_map]
    constructor
    · rintro (⟨b, hb, rfl⟩ | ⟨hstart, word', hword', hbit⟩)
      · obtain ⟨hlt, hbit⟩ := mem_wordMembers.mp hb
        have hdiv : (start * wordBits + b) / 64 = start := by
          unfold wordBits
          omega
        have hmod : (start * wordBits + b) % 64 = b := by
          unfold wordBits
          omega
        rw [hdiv, hmod, Nat.sub_self]
        exact ⟨Nat.le_refl _, word, rfl, hbit⟩
      · refine ⟨by omega, word', ?_, hbit⟩
        rw [show i / 64 - start = (i / 64 - (start + 1)) + 1 by omega]
        exact hword'
    · rintro ⟨hstart, word', hword', hbit⟩
      -- The bit is in the first word or in a later one.
      rcases Nat.eq_or_lt_of_le hstart with heq | hlt
      · left
        rw [← heq, Nat.sub_self] at hword'
        cases hword'
        refine ⟨i % 64, mem_wordMembers.mpr ⟨Nat.mod_lt _ (by decide), hbit⟩, ?_⟩
        unfold wordBits
        omega
      · right
        refine ⟨hlt, word', ?_, hbit⟩
        rw [show i / 64 - start = (i / 64 - (start + 1)) + 1 by omega] at hword'
        exact hword'

/-- The members listed are the numbers in the set. -/
theorem mem_toList (s : DenseSet) (i : Nat) : i ∈ s.toList ↔ s.contains i = true := by
  rw [toList, mem_toListFrom, contains]
  simp only [Nat.zero_le, true_and, Nat.sub_zero, Array.getElem?_toList, wordBits]
  cases s.words[i / 64]? <;> simp

theorem toListFrom_ascending (start : Nat) (words : List UInt64) :
    (toListFrom start words).Pairwise (· < ·) := by
  induction words generalizing start with
  | nil => exact List.Pairwise.nil
  | cons word rest ih =>
    rw [toListFrom]
    refine List.pairwise_append.mpr ⟨?_, ih (start + 1), ?_⟩
    · refine (wordMembers_ascending word).map _ fun a b hab => ?_
      omega
    · intro a ha b hb
      -- The numbers of later words are larger than all of the first word.
      obtain ⟨bit, hbit, rfl⟩ := List.mem_map.mp ha
      have hlow := (mem_wordMembers.mp hbit).1
      have hhigh := (mem_toListFrom.mp hb).1
      unfold wordBits
      omega

/-- The members are listed in ascending order. -/
theorem toList_ascending (s : DenseSet) : s.toList.Pairwise (· < ·) :=
  toListFrom_ascending 0 s.words.toList

end ArchetypeStore.DenseSet

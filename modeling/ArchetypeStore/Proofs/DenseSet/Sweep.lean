import ArchetypeStore.DenseSet.Sweep
import ArchetypeStore.Proofs.DenseSet
import ArchetypeStore.Proofs.Iteration

/-! # What a sweep comes to

  The lowest bit of a word is its first member, and clearing it leaves the others. So what
  is left of a word, with the members of the words behind it, is a list from which every
  step takes the first number. A sweep ends, and comes to all members on the way, each once
  and in ascending order.
-/

namespace ArchetypeStore.DenseSet

/-! ### The lowest bit of a word -/

/-- A number that ends in a one and `t` zeros is just above one that ends in a zero and `t`
ones. -/
theorem exists_of_lowest {n t : Nat} (hset : n.testBit t = true)
    (hclear : ∀ i < t, n.testBit i = false) :
    ∃ q, n = (1 <<< t) * (2 * q + 1) ∧ n - 1 = (1 <<< t) * (2 * q) + (1 <<< t - 1) := by
  rw [Nat.one_shiftLeft]
  have hlow : n % 2 ^ t = 0 := by
    apply Nat.eq_of_testBit_eq
    intro i
    rw [Nat.testBit_mod_two_pow, Nat.zero_testBit]
    by_cases hi : i < t
    · simp [hclear i hi]
    · simp [hi]
  have hodd : n / 2 ^ t % 2 = 1 := by
    rw [Nat.testBit_eq_decide_div_mod_eq] at hset
    simpa using hset
  have hquot : 2 * (n / 2 ^ t / 2) + 1 = n / 2 ^ t := by omega
  have hn : n = 2 ^ t * (2 * (n / 2 ^ t / 2) + 1) := by
    have hdiv := Nat.div_add_mod n (2 ^ t)
    rw [hquot]
    omega
  refine ⟨n / 2 ^ t / 2, hn, ?_⟩
  have hpos := Nat.two_pow_pos t
  rw [Nat.mul_add, Nat.mul_one] at hn
  omega

/-- A number and its predecessor agree above the lowest bit, and nowhere else have a bit in
common. -/
theorem testBit_and_pred {n t : Nat} (hset : n.testBit t = true)
    (hclear : ∀ i < t, n.testBit i = false) (j : Nat) :
    (n &&& (n - 1)).testBit j = (n.testBit j && !decide (j = t)) := by
  obtain ⟨q, hn, hpred⟩ := exists_of_lowest hset hclear
  rw [Nat.one_shiftLeft] at hn hpred
  have hones : 2 ^ t - 1 < 2 ^ t := Nat.sub_lt (Nat.two_pow_pos t) Nat.one_pos
  rw [Nat.testBit_and, hpred, Nat.testBit_two_pow_mul_add _ hones]
  by_cases hlow : j < t
  · simp [hclear j hlow]
  · rw [if_neg hlow, hn, Nat.testBit_two_pow_mul]
    by_cases heq : j = t
    · subst heq
      simp
    · -- Above the lowest bit both have the bits of `q`.
      obtain ⟨k, rfl⟩ : ∃ k, j = t + (k + 1) := ⟨j - t - 1, by omega⟩
      have hodd : (2 * q + 1) / 2 = q := by omega
      have heven : 2 * q / 2 = q := by omega
      simp [Nat.testBit_succ, hodd, heven]

theorem wordHas_lowestBit {word : UInt64} (h : word ≠ 0) :
    wordHas word (lowestBit word) = true := by
  have hne : word.toBitVec ≠ 0#64 := by
    intro hzero
    apply h
    exact UInt64.toBitVec_inj.mp hzero
  exact BitVec.getLsbD_true_ctz_of_ne_zero hne

theorem wordHas_of_lt_lowestBit {word : UInt64} {b : Nat} (hb : b < lowestBit word) :
    wordHas word b = false :=
  BitVec.getLsbD_false_of_lt_ctz hb

theorem wordHas_clearLowest {word : UInt64} (h : word ≠ 0) (b : Nat) :
    wordHas (clearLowest word) b = (wordHas word b && !decide (b = lowestBit word)) := by
  have hpos : (1 : UInt64) ≤ word := by
    rw [UInt64.le_iff_toNat_le, UInt64.toNat_one]
    apply Nat.one_le_iff_ne_zero.mpr
    intro hzero
    exact h (UInt64.toNat_inj.mp hzero)
  rw [wordHas, clearLowest, UInt64.toNat_and, UInt64.toNat_sub_of_le _ _ hpos, UInt64.toNat_one]
  exact testBit_and_pred (wordHas_lowestBit h) (fun i hi => wordHas_of_lt_lowestBit hi) b

theorem lt_of_wordHas {word : UInt64} {b : Nat} (h : wordHas word b = true) : b < 64 := by
  apply Nat.lt_of_not_le
  intro hle
  have hsize : word.toNat < 2 ^ b :=
    Nat.lt_of_lt_of_le word.toNat_lt (Nat.pow_le_pow_right (by decide) hle)
  rw [wordHas, Nat.testBit_lt_two_pow hsize] at h
  cases h

/-- The lowest bit is the first member of a word. -/
theorem wordMembers_of_ne_zero {word : UInt64} (h : word ≠ 0) :
    wordMembers word = lowestBit word :: wordMembers (clearLowest word) := by
  apply eq_of_ascending (wordMembers_ascending word)
  · refine List.pairwise_cons.mpr ⟨?_, wordMembers_ascending _⟩
    intro b hb
    have hbit := (mem_wordMembers.mp hb).2
    simp only [wordHas_clearLowest h, Bool.and_eq_true, Bool.not_eq_true',
      decide_eq_false_iff_not] at hbit
    apply Nat.lt_of_not_le
    intro hle
    -- Below the lowest bit the word has none.
    have hlow : wordHas word b = false :=
      wordHas_of_lt_lowestBit (Nat.lt_of_le_of_ne hle hbit.2)
    simp [hbit.1] at hlow
  · intro b
    have hlowest := wordHas_lowestBit h
    rw [List.mem_cons, mem_wordMembers, mem_wordMembers, wordHas_clearLowest h]
    by_cases hb : b = lowestBit word
    · subst hb
      simp [hlowest, lt_of_wordHas hlowest]
    · simp [hb]

@[simp] theorem wordMembers_zero : wordMembers 0 = [] := by
  simp [wordMembers, wordHas]

/-! ### Steps of a sweep -/

namespace Sweep

variable (s : DenseSet)

/-- The members that the sweep has not come to. -/
def rest (c : Sweep) : List Nat :=
  (wordMembers c.left).map (c.index * wordBits + ·) ++
    toListFrom (c.index + 1) (s.words.toList.drop (c.index + 1))

theorem rest_start : (start s).rest s = s.toList := by
  unfold rest start toList
  rw [← Array.getElem?_toList]
  cases s.words.toList with
  | nil => simp [toListFrom]
  | cons word words => simp [toListFrom]

theorem rest_of_ne_zero {c : Sweep} (h : c.left ≠ 0) :
    c.rest s = (c.index * wordBits + lowestBit c.left) ::
      rest s { c with left := clearLowest c.left } := by
  simp [rest, wordMembers_of_ne_zero h]

theorem rest_of_zero {c : Sweep} (h : c.left = 0) :
    c.rest s = toListFrom (c.index + 1) (s.words.toList.drop (c.index + 1)) := by
  simp [rest, h]

theorem next_spec (c : Sweep) : TakesFirst (rest s) c (c.next s) := by
  induction c using next.induct s with
  | case1 c h =>
    unfold next
    rw [if_pos h]
    exact rest_of_ne_zero s h
  | case2 c hzero hlt ih =>
    have hrest : c.rest s = rest s ⟨c.index + 1, s.words[c.index + 1]⟩ := by
      rw [rest_of_zero s (by simpa using hzero), List.drop_eq_getElem_cons (by simpa using hlt)]
      simp [rest, toListFrom]
    unfold next
    rw [if_neg hzero, dif_pos hlt]
    unfold TakesFirst at ih ⊢
    rwa [hrest]
  | case3 c hzero hend =>
    unfold next
    rw [if_neg hzero, dif_neg hend]
    show c.rest s = []
    rw [rest_of_zero s (by simpa using hzero), List.drop_eq_nil_of_le (by simpa using hend)]
    rfl

/-- A sweep comes to the members, one by one and in ascending order. -/
theorem yields_toList : Yields (next s) (start s) s.toList := by
  rw [← rest_start]
  exact Yields.of_rest (next_spec s) (start s)

end Sweep

end ArchetypeStore.DenseSet

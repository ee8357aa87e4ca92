import ArchetypeStore.Proofs.Catalog.Key
import ArchetypeStore.Proofs.SetHash.Clear
import Mathlib.Data.Finset.Sort
import Mathlib.Order.Interval.Finset.Nat

/-! # Sets with different keys

  The key of a set of two or more indices is its hash with the highest bit set, so it tells
  the hash modulo `2 ^ 63`. A set of 2 to 12 indices, none above 33, has a key of its own.
  Among sets of this size this is an induction from the last digit, since nothing wraps
  around; larger sets wrap around, and the search says that none of them comes back to a
  small one.

  The bound is sharp: with 34 indices there are two sets with one key.
-/

namespace ArchetypeStore

theorem multiKey_eq_iff {s l : List Nat} : multiKey (setHash s) = multiKey (setHash l) ↔
    digitValue s.reverse % 2 ^ 63 = digitValue l.reverse % 2 ^ 63 := by
  rw [← UInt64.toNat_inj, toNat_multiKey, toNat_multiKey, toNat_setHash, toNat_setHash,
    Nat.one_shiftLeft]
  omega

/-- The numbers of at most 12 digits up to 33 are less than `2 ^ 63` by far. -/
theorem Falling.digitValue_le_of_twelve {lo : Nat} {ds : List Nat} (h : Falling lo 33 ds)
    (hlen : ds.length ≤ 12) : digitValue ds ≤ 578494555649145990 := by
  have htop : digitValue (highest 12 33) = 578494555649145990 := by decide
  exact htop ▸ h.digitValue_le hlen

namespace SetSearch

/-- All digits of the row are greater by the same amount. -/
theorem digitValue_highest_add (n c : Nat) : digitValue (highest n (n + c)) =
    digitValue (highest n n) + c * digitValue (List.replicate n 1) := by
  induction n with
  | zero => rw [highest, highest, List.replicate_zero, digitValue, Nat.mul_zero]
  | succ n ih =>
    rw [Nat.add_right_comm, highest, highest, List.replicate_succ]
    simp only [Nat.add_sub_cancel, digitValue, ih, Nat.mul_add, Nat.mul_one,
      Nat.mul_left_comm c 31]
    omega

/-- What 12 digits above `a` are worth at least. -/
theorem le_digitValue_of_twelve {a : Nat} (hle : a ≤ 21) {ds : List Nat} (h : Falling a 33 ds)
    (hlen : ds.length = 12) :
    578494555649145990 ≤ digitValue ds + (21 - a) * 26255426126284992 := by
  have hleast := h.le_digitValue
  have hone : digitValue (List.replicate 12 1) = 26255426126284992 := by decide
  have htwelve : digitValue (highest 12 12) = 27130606997161158 := by decide
  rw [hlen, Nat.add_comm a 12, digitValue_highest_add, hone, htwelve] at hleast
  omega

/-- No number of 2 to 12 digits is that of more digits, modulo `2 ^ 63`. -/
theorem digitValue_mod_ne {ds es : List Nat} (hds : Falling 0 33 ds) (hes : Falling 0 33 es)
    (htwo : 2 ≤ ds.length) (htwelve : ds.length ≤ 12) (hmore : 12 < es.length) :
    digitValue ds % 2 ^ 63 ≠ digitValue es % 2 ^ 63 := by
  intro heq
  -- The 12 greatest digits stay, the others are cut off.
  obtain ⟨kept, a, others, rfl, hkept⟩ : ∃ kept a others, es = kept ++ a :: others ∧
      kept.length = 12 := by
    refine ⟨es.take 12, es[12], es.drop 13, ?_, List.length_take_of_le (Nat.le_of_lt hmore)⟩
    rw [← List.drop_eq_getElem_cons hmore, List.take_append_drop]
  obtain ⟨hkeeps, hpos, hle, hothers⟩ := hes.of_append_cons
  have hroom := hkeeps.add_length_le hle
  have htop := hds.digitValue_le_of_twelve htwelve
  have htop' := hkeeps.digitValue_le_of_twelve (Nat.le_of_eq hkept)
  have hleast := le_digitValue_of_twelve (by omega) hkeeps hkept
  rw [digitValue_append, hkept] at heq
  have hsum : digitValue kept + offset (a :: others) = digitValue ds + 578494555649145990 := by
    rw [offset]
    omega
  have hclear := clear hpos (by omega : a ≤ 21) others hothers
  simp only [List.nil_append, refutes, Bool.or_eq_true, Nat.ble_eq, limit,
    Bool.not_eq_true'] at hclear
  rcases hclear with hrange | hnone
  · omega
  · have hsum' : digitValue kept + (offset (a :: others) + 996831011927953532) =
        digitValue ds + 2 * 31 ^ kept.length := by
      rw [hkept]
      omega
    have hmeets := meets_of_sum hkeeps hds (by omega) hsum' (by omega) (by omega)
    rw [hkept] at hmeets
    exact Bool.false_ne_true (hnone.symm.trans hmeets)

end SetSearch

/-- Digits up to 33, 2 to 12 of them, are known from their number modulo `2 ^ 63`. -/
theorem Falling.eq_of_digitValue_mod_eq {ds es : List Nat} (hds : Falling 0 33 ds)
    (hes : Falling 0 33 es) (htwo : 2 ≤ ds.length) (htwelve : ds.length ≤ 12)
    (htwo' : 2 ≤ es.length) (h : digitValue ds % 2 ^ 63 = digitValue es % 2 ^ 63) : ds = es := by
  rcases Nat.lt_or_ge 12 es.length with hmore | htwelve'
  · exact absurd h (SetSearch.digitValue_mod_ne hds hes htwo htwelve hmore)
  · -- Without many digits there is nothing that wraps around.
    have htop := hds.digitValue_le_of_twelve htwelve
    have htop' := hes.digitValue_le_of_twelve htwelve'
    exact hds.eq_of_digitValue_eq_of_two_le hes htwo htwo' (by omega)

/-! ### Keys of sets -/

/-- The key of a set of two or more indices: the hash of the ascending indices, with the
highest bit set. -/
def setKey (s : Finset Nat) : UInt64 := multiKey (setHash s.sort)

theorem setKey_of_ascending {l : List Nat} (h : l.Pairwise (· < ·)) :
    setKey l.toFinset = multiKey (setHash l) := by
  have hsort : l.toFinset.sort = l :=
    (List.toFinset_sort _ (h.imp Nat.ne_of_lt)).mpr (h.imp Nat.le_of_lt)
  rw [setKey, hsort]

theorem falling_sort {s : Finset Nat} {n : Nat} (h : s ⊆ Finset.Icc 1 n) :
    Falling 0 n s.sort.reverse := by
  refine Falling.of_pairwise ?_ fun d hd => ?_
  · rw [List.pairwise_reverse]
    exact s.sortedLT_sort.pairwise
  · have hrange := h ((Finset.mem_sort _).mp (List.mem_reverse.mp hd))
    rw [Finset.mem_Icc] at hrange
    exact hrange

/-- A set of 2 to 12 indices up to 33 shares its key with no other set of two or more. -/
theorem setKey_inj {s t : Finset Nat} (hs : s ⊆ Finset.Icc 1 33) (ht : t ⊆ Finset.Icc 1 33)
    (htwo : 2 ≤ s.card) (htwelve : s.card ≤ 12) (htwo' : 2 ≤ t.card)
    (h : setKey s = setKey t) : s = t := by
  have hdigits := (falling_sort hs).eq_of_digitValue_mod_eq (falling_sort ht)
    (by simpa using htwo) (by simpa using htwelve) (by simpa using htwo') (multiKey_eq_iff.mp h)
  rw [← s.sort_toFinset (· ≤ ·), List.reverse_injective hdigits, Finset.sort_toFinset]

/-- The sets of 2 to 12 indices up to `n`. -/
def indexSets (n : Nat) : Set (Finset Nat) :=
  {s | s ⊆ Finset.Icc 1 n ∧ 2 ≤ s.card ∧ s.card ≤ 12}

theorem injOn_setKey {n : Nat} (hn : n ≤ 33) : Set.InjOn setKey (indexSets n) := by
  have hrange : Finset.Icc 1 n ⊆ Finset.Icc 1 33 := Finset.Icc_subset_Icc_right hn
  rintro s ⟨hs, htwo, htwelve⟩ t ⟨ht, htwo', -⟩ h
  exact setKey_inj (hs.trans hrange) (ht.trans hrange) htwo htwelve htwo' h

/-- From 34 on there are sets with one key: 33 has the digit 33 as well as the digits 2 and
1. -/
theorem not_injOn_setKey {n : Nat} (hn : 33 < n) : ¬ Set.InjOn setKey (indexSets n) := by
  intro hinj
  have hpair : ({33, 34} : Finset Nat) ∈ indexSets n := by
    refine ⟨fun i hi => ?_, by decide, by decide⟩
    simp only [Finset.mem_insert, Finset.mem_singleton] at hi
    rw [Finset.mem_Icc]
    omega
  have htriple : ({1, 2, 34} : Finset Nat) ∈ indexSets n := by
    refine ⟨fun i hi => ?_, by decide, by decide⟩
    simp only [Finset.mem_insert, Finset.mem_singleton] at hi
    rw [Finset.mem_Icc]
    omega
  have hkey : setKey {33, 34} = setKey {1, 2, 34} := by
    have hkey : setKey [33, 34].toFinset = setKey [1, 2, 34].toFinset := by
      rw [setKey_of_ascending (by decide), setKey_of_ascending (by decide)]
      decide
    exact hkey
  exact absurd (hinj hpair htriple hkey) (by decide)

end ArchetypeStore

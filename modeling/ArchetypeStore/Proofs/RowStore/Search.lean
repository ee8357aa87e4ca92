import ArchetypeStore.RowStore.Basic

/-! # Search in a chain

  The numbers of a chain ascend, so halving finds a number exactly when it is there.
-/

namespace ArchetypeStore

/-- The numbers ascend. -/
def Ascending (numbers : Array Nat) : Prop := numbers.toList.Pairwise (· < ·)

theorem Ascending.lt {numbers : Array Nat} (h : Ascending numbers) {i j x y : Nat}
    (hi : numbers[i]? = some x) (hj : numbers[j]? = some y) (hij : i < j) : x < y := by
  obtain ⟨hi', rfl⟩ := Array.getElem?_eq_some_iff.mp hi
  obtain ⟨hj', rfl⟩ := Array.getElem?_eq_some_iff.mp hj
  exact List.pairwise_iff_getElem.mp h i j hi' hj' hij

theorem bisect_sound (numbers : Array Nat) (key low high : Nat) {i : Nat}
    (h : bisect numbers key low high = some i) : numbers[i]? = some key := by
  fun_induction bisect numbers key low high with
  | case1 => cases h
  | case2 low high _ hnumber => rw [← Option.some.inj h, hnumber]
  | case3 low high _ number hnumber hne hlt ih => exact ih h
  | case4 low high _ number hnumber hne hge ih => exact ih h
  | case5 => cases h

/-- A key that lies in the range is found: the half that is left out has no room for it. -/
theorem bisect_complete {numbers : Array Nat} (hsorted : Ascending numbers)
    (key low high : Nat) (hhigh : high ≤ numbers.size) {i : Nat} (hlow : low ≤ i)
    (hi : i < high) (hkey : numbers[i]? = some key) :
    bisect numbers key low high = some i := by
  fun_induction bisect numbers key low high with
  | case1 low high hlt hnone =>
    have hbound := Array.getElem?_eq_none_iff.mp hnone
    omega
  | case2 low high hlt hnumber =>
    rcases Nat.lt_trichotomy i ((low + high) / 2) with hside | hside | hside
    · have := hsorted.lt hkey hnumber hside
      omega
    · rw [hside]
    · have := hsorted.lt hnumber hkey hside
      omega
  | case3 low high hlt number hnumber hne hless ih =>
    refine ih hhigh ?_ hi
    -- The middle is too small, so the key lies in the upper half.
    rcases Nat.lt_trichotomy i ((low + high) / 2) with hside | hside | hside
    · have := hsorted.lt hkey hnumber hside
      omega
    · rw [hside, hnumber] at hkey
      exact absurd (Option.some.inj hkey) hne
    · omega
  | case4 low high hlt number hnumber hne hge ih =>
    refine ih (by omega) hlow ?_
    -- The middle is too large, so the key lies in the lower half.
    rcases Nat.lt_trichotomy i ((low + high) / 2) with hside | hside | hside
    · exact hside
    · rw [hside, hnumber] at hkey
      exact absurd (Option.some.inj hkey) hne
    · have := hsorted.lt hnumber hkey hside
      omega
  | case5 low high hge => omega

namespace Partition

variable {T : Type}

/-- A partition owns exactly the chunks of its chain. -/
theorem owns_iff {p : Partition T} (hsorted : Ascending p.chain) (chunk : Nat) :
    p.owns chunk = true ↔ chunk ∈ p.chain.toList := by
  rw [owns, position?, Option.isSome_iff_exists]
  constructor
  · rintro ⟨i, hi⟩
    have hget := bisect_sound _ _ _ _ hi
    rw [← Array.getElem?_toList] at hget
    exact List.mem_of_getElem? hget
  · intro hmem
    obtain ⟨i, hi⟩ := List.getElem?_of_mem hmem
    rw [Array.getElem?_toList] at hi
    obtain ⟨hlt, -⟩ := Array.getElem?_eq_some_iff.mp hi
    exact ⟨i, bisect_complete hsorted _ _ _ (Nat.le_refl _) (Nat.zero_le i) hlt hi⟩

end Partition

end ArchetypeStore

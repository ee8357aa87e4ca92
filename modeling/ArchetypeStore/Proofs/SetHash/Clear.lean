import ArchetypeStore.Proofs.SetHash.Search
import Mathlib.Tactic.IntervalCases

/-! # No cut leads to sets with one key

  The search is run for every greatest digit that may be cut off. It is divided by the
  digits that follow until at most eleven are left, and the kernel tries the 2048 cuts with
  these at once. What takes long is a lemma of its own.
-/

namespace ArchetypeStore.SetSearch

theorem clear_of_le {a : Nat} (hpos : 1 ≤ a) (hle : a ≤ 18) : Clear a [] (a - 1) := by
  interval_cases a
  all_goals
    repeat' refine Clear.divide ?_ ?_
    all_goals exact Clear.of_tryAll (by decide +kernel)

/-! The greatest digit, those of the next ones that are among the digits, and the rest. -/

theorem clear_19 : Clear 19 [] 18 := by
  repeat' refine Clear.divide ?_ ?_
  all_goals exact Clear.of_tryAll (by decide +kernel)

theorem clear_20_19 : Clear 20 [19] 18 := by
  repeat' refine Clear.divide ?_ ?_
  all_goals exact Clear.of_tryAll (by decide +kernel)

theorem clear_20_rest : Clear 20 [] 18 := by
  repeat' refine Clear.divide ?_ ?_
  all_goals exact Clear.of_tryAll (by decide +kernel)

theorem clear_21_20_19 : Clear 21 [20, 19] 18 := by
  repeat' refine Clear.divide ?_ ?_
  all_goals exact Clear.of_tryAll (by decide +kernel)

theorem clear_21_20_rest : Clear 21 [20] 18 := by
  repeat' refine Clear.divide ?_ ?_
  all_goals exact Clear.of_tryAll (by decide +kernel)

theorem clear_21_19 : Clear 21 [19] 18 := by
  repeat' refine Clear.divide ?_ ?_
  all_goals exact Clear.of_tryAll (by decide +kernel)

theorem clear_21_rest : Clear 21 [] 18 := by
  repeat' refine Clear.divide ?_ ?_
  all_goals exact Clear.of_tryAll (by decide +kernel)

/-- Whatever is cut off, the search finds nothing. -/
theorem clear {a : Nat} (hpos : 1 ≤ a) (hle : a ≤ 21) : Clear a [] (a - 1) := by
  rcases Nat.lt_or_ge 18 a with hgreater | hless
  · have hcases : a = 19 ∨ a = 20 ∨ a = 21 := by omega
    rcases hcases with rfl | rfl | rfl
    · exact clear_19
    · exact .divide clear_20_19 clear_20_rest
    · exact .divide (.divide clear_21_20_19 clear_21_20_rest)
        (.divide clear_21_19 clear_21_rest)
  · exact clear_of_le hpos hless

end ArchetypeStore.SetSearch

/-! # Iterations

  An iteration is a step that gives a value and a new place, or fails at the end. What it
  comes to is a list. When each place has a list of values that are left, and every step
  takes the first value off this list, the iteration comes to exactly these values, one after
  the other.
-/

namespace ArchetypeStore

/-- Stepping on from a place comes to these values one after the other, and to no more. -/
def Yields {σ α : Type} (next : σ → Option (α × σ)) (c : σ) : List α → Prop
  | [] => next c = none
  | a :: rest => ∃ c', next c = some (a, c') ∧ Yields next c' rest

/-- A step takes the first value off those that are left, and fails when none is left. -/
def TakesFirst {σ α : Type} (rest : σ → List α) (c : σ) : Option (α × σ) → Prop
  | none => rest c = []
  | some (a, c') => rest c = a :: rest c'

theorem Yields.of_rest {σ α : Type} {next : σ → Option (α × σ)} {rest : σ → List α}
    (hnext : ∀ c, TakesFirst rest c (next c)) (c : σ) : Yields next c (rest c) := by
  induction hrest : rest c generalizing c with
  | nil =>
    have hstep := hnext c
    cases hfound : next c with
    | none => exact hfound
    | some found =>
      rw [hfound] at hstep
      exact nomatch hrest.symm.trans hstep
  | cons a more ih =>
    have hstep := hnext c
    cases hfound : next c with
    | none =>
      rw [hfound] at hstep
      exact nomatch hrest.symm.trans hstep
    | some found =>
      rw [hfound] at hstep
      obtain ⟨rfl, hmore⟩ := List.cons_eq_cons.mp (hrest.symm.trans hstep)
      exact ⟨found.2, hfound, ih found.2 hmore.symm⟩

end ArchetypeStore

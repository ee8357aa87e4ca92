import ArchetypeStore.ComponentType

/-! # Sample component types

  Two small component types, for worked cases of general statements.
-/

namespace ArchetypeStore

/-- Two component types. -/
inductive Sample where
  /-- A place in the plane. -/
  | position
  /-- A change of place. -/
  | velocity
  deriving DecidableEq

instance : ComponentType Sample where
  name
    | .position => "Position"
    | .velocity => "Velocity"
  size _ := 8
  align _ := 4
  hash
    | .position => 0
    | .velocity => UInt64.ofNat (1 <<< 63)

/-- What a worked case starts from is there when making it succeeds. -/
theorem exists_of_isOk {ε α : Type} {made : Except ε α} (h : made.isOk = true) :
    ∃ a, made = .ok a := by
  cases made with
  | error e => cases h
  | ok a => exact ⟨a, rfl⟩

/-- What was computed from it is so of what a worked case starts from. -/
theorem exists_of_map {ε α β : Type} {made : Except ε α} {f : α → β} {b : β}
    (h : made.map f = .ok b) : ∃ a, made = .ok a ∧ f a = b := by
  cases made with
  | error e => cases h
  | ok a => exact ⟨a, rfl, Except.ok.inj h⟩

end ArchetypeStore

import ArchetypeStore.Value

/-! # Ledger of numbered values

  A ledger gives each numbered value that is made a serial of its own and notes which of
  them were dropped. The values that are alive are those made and not dropped.
-/

namespace ArchetypeStore

/-- The serial of a numbered value. -/
def Value.serial? : Value → Option Nat
  | numbered serial _ => some serial
  | _ => none

/-- Which numbered values were made, and which were dropped. -/
structure Ledger where
  /-- The texts of the values made, by serial. -/
  made : Array String
  /-- The serials of values dropped, last first. -/
  dropped : List Nat
  deriving DecidableEq

namespace Ledger

/-- The ledger before any value was made. -/
def empty : Ledger := ⟨#[], []⟩

/-- Make a numbered value. -/
def make (l : Ledger) (text : String) : Value × Ledger :=
  (.numbered l.made.size text, { l with made := l.made.push text })

/-- Note values as dropped. -/
def drop (l : Ledger) (values : List Value) : Ledger :=
  { l with dropped := values.filterMap Value.serial? ++ l.dropped }

/-- The texts at the serials that are not marked. -/
def unmarked : List String → List Bool → List String
  | text :: texts, false :: marks => text :: unmarked texts marks
  | _ :: texts, true :: marks => unmarked texts marks
  | _, _ => []

/-- The texts of the values made and not dropped, in the order in which they were made. -/
def alive (l : Ledger) : List String :=
  unmarked l.made.toList
    (l.dropped.foldl (fun (marks : Array Bool) serial => marks.setIfInBounds serial true)
      (Array.replicate l.made.size false)).toList

end Ledger

end ArchetypeStore

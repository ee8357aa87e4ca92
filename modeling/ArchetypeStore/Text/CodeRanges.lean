/-! # Ranges of code points

  A property of characters is given by the ranges of code points that have it, ascending
  and apart. A search can then stop at the first range that begins behind the code point.
-/

namespace ArchetypeStore.Text

/-- Does a range contain `n`, when the ranges are ascending? -/
def inRanges (n : Nat) : List (Nat × Nat) → Bool
  | [] => false
  | (low, high) :: rest => low ≤ n && (n ≤ high || inRanges n rest)

end ArchetypeStore.Text

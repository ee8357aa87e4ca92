import ArchetypeStore.DenseSet

/-! # Sweeps

  A sweep comes to the members of a bit set one at a time. It notes a word and which of its
  bits are left. The lowest of these is the next member, and is cleared; when none is left
  the sweep goes on to the next word that has one.
-/

namespace ArchetypeStore.DenseSet

/-! ### Bits -/

/-- The number of clear bits below the lowest bit that is set. -/
def lowestBit (word : UInt64) : Nat := word.toBitVec.ctz.toNat

/-- The word without the lowest bit that is set. -/
def clearLowest (word : UInt64) : UInt64 := word &&& (word - 1)

/-! ### Steps -/

/-- A place in the walk over the members. -/
structure Sweep where
  /-- The number of the word. -/
  index : Nat
  /-- The bits of the word that are left. -/
  left : UInt64
  deriving DecidableEq

namespace Sweep

/-- The sweep before the first member. -/
def start (s : DenseSet) : Sweep := ⟨0, s.words[0]?.getD 0⟩

/-- The next member, with the sweep behind it. -/
def next (s : DenseSet) (c : Sweep) : Option (Nat × Sweep) :=
  if c.left ≠ 0 then
    some (c.index * wordBits + lowestBit c.left, { c with left := clearLowest c.left })
  else if h : c.index + 1 < s.words.size then next s ⟨c.index + 1, s.words[c.index + 1]⟩
  else none
  termination_by s.words.size - c.index

end Sweep

end ArchetypeStore.DenseSet

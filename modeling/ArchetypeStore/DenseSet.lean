import ArchetypeStore.StoreError

/-! # Bit sets

  A set of natural numbers below a fixed capacity, kept as 64-bit words. Number `i` is in
  the set when bit `i % 64` of word `i / 64` is set.
-/

namespace ArchetypeStore

/-- A set of numbers below `capacity`, one bit each. -/
structure DenseSet where
  /-- Bit words, lowest numbers first. -/
  words : Array UInt64
  /-- Numbers at or above this cannot be inserted. -/
  capacity : Nat
  deriving DecidableEq

namespace DenseSet

/-- Bits per word. -/
def wordBits : Nat := 64

/-- The word in which only bit `b` is set. -/
def bitWord (b : Nat) : UInt64 := (1 : UInt64) <<< UInt64.ofNat b

/-- Is bit `b` of the word set? -/
def wordHas (word : UInt64) (b : Nat) : Bool := word.toNat.testBit b

/-- The set bits of a word, ascending. -/
def wordMembers (word : UInt64) : List Nat := (List.range wordBits).filter (wordHas word)

/-- The number of set bits of a word. -/
def wordCount (word : UInt64) : Nat := (List.range wordBits).countP (wordHas word)

/-- The empty set with room for the numbers below `capacity`. -/
def withCapacity (capacity : Nat) : DenseSet :=
  ⟨Array.replicate ((capacity + (wordBits - 1)) / wordBits) 0, capacity⟩

/-- The empty set without room. -/
def empty : DenseSet := withCapacity 0

instance : Inhabited DenseSet := ⟨empty⟩

/-- Is `i` in the set? Numbers beyond the last word are not. -/
def contains (s : DenseSet) (i : Nat) : Bool :=
  match s.words[i / wordBits]? with
  | some word => wordHas word (i % wordBits)
  | none => false

/-- Add `i`. The answer is true when `i` was not in the set before. A number at or above
the capacity is a fault. -/
def insert (s : DenseSet) (i : Nat) : Except Fault (Bool × DenseSet) :=
  if i < s.capacity then
    .ok (!s.contains i,
      { s with words := s.words.modify (i / wordBits) (· ||| bitWord (i % wordBits)) })
  else
    .error (.bitOutside i s.capacity)

/-- The number of members. -/
def size (s : DenseSet) : Nat := (s.words.toList.map wordCount).foldr (· + ·) 0

/-- Remove every member; the room stays. -/
def clear (s : DenseSet) : DenseSet := { s with words := s.words.map fun _ => 0 }

/-- The members of the words from word number `start` on. -/
def toListFrom (start : Nat) : List UInt64 → List Nat
  | [] => []
  | word :: rest => (wordMembers word).map (start * wordBits + ·) ++ toListFrom (start + 1) rest

/-- The members, ascending. -/
def toList (s : DenseSet) : List Nat := toListFrom 0 s.words.toList

end DenseSet

end ArchetypeStore

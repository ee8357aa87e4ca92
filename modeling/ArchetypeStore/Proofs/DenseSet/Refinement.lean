import ArchetypeStore.Proofs.Copies
import ArchetypeStore.Proofs.DenseSet.Sweep
import Mathlib.Data.Finset.Sort

/-! # A bit set is a finite set

  Seen through its calls, a bit set is a finite set of numbers below its capacity, and so is
  each of its copies. Words and bits do not show in any answer: not the bits of the last word
  that lie beyond the capacity, which are never set, and not the words without members,
  which a sweep passes over.
-/

namespace ArchetypeStore.DenseSet

/-! ### Counting -/

theorem length_wordMembers (word : UInt64) : (wordMembers word).length = wordCount word := by
  rw [wordMembers, wordCount, List.countP_eq_length_filter]

theorem length_toListFrom (start : Nat) (words : List UInt64) :
    (toListFrom start words).length = (words.map wordCount).foldr (· + ·) 0 := by
  induction words generalizing start with
  | nil => rfl
  | cons word rest ih => simp [toListFrom, length_wordMembers, ih]

theorem length_toList (s : DenseSet) : s.toList.length = s.size :=
  length_toListFrom 0 s.words.toList

/-! ### Calls -/

/-- A call of a bit set. -/
inductive Call where
  | insert (i : Nat)
  | contains (i : Nat)
  | count
  | clear
  | list

/-- What a call answers. -/
inductive Answer where
  | verdict (b : Bool)
  | fault (f : Fault)
  | number (n : Nat)
  | done
  | members (l : List Nat)
  deriving DecidableEq

/-- Carry out a call. A fault leaves the set as it is. -/
def call (s : DenseSet) : Call → Answer × DenseSet
  | .insert i =>
    match s.insert i with
    | .ok (fresh, s) => (.verdict fresh, s)
    | .error f => (.fault f, s)
  | .contains i => (.verdict (s.contains i), s)
  | .count => (.number s.size, s)
  | .clear => (.done, s.clear)
  | .list => (.members s.toList, s)

/-- Carry out a call of a finite set of numbers below `capacity`. -/
def callSet (capacity : Nat) (members : Finset Nat) : Call → Answer × Finset Nat
  | .insert i =>
    if i < capacity then (.verdict (decide (i ∉ members)), Insert.insert i members)
    else (.fault (.bitOutside i capacity), members)
  | .contains i => (.verdict (decide (i ∈ members)), members)
  | .count => (.number members.card, members)
  | .clear => (.done, ∅)
  | .list => (.members members.sort, members)

/-! ### What a bit set stands for -/

/-- The bit set has the capacity and the members. -/
structure Represents (capacity : Nat) (s : DenseSet) (members : Finset Nat) : Prop where
  capacity_eq : s.capacity = capacity
  roomy : s.Roomy
  below : ∀ i ∈ members, i < capacity
  contains_iff : ∀ i, s.contains i = true ↔ i ∈ members

namespace Represents

variable {capacity : Nat} {s : DenseSet} {members : Finset Nat}

theorem withCapacity (capacity : Nat) : Represents capacity (withCapacity capacity) ∅ := by
  refine ⟨rfl, roomy_withCapacity capacity, by simp, ?_⟩
  intro i
  -- Every word of a new set is clear.
  have hclear : (DenseSet.withCapacity capacity).clear = DenseSet.withCapacity capacity := by
    simp [clear, DenseSet.withCapacity]
  rw [← hclear, contains_clear]
  simp

theorem clear (h : Represents capacity s members) : Represents capacity s.clear ∅ := by
  refine ⟨h.capacity_eq, roomy_clear h.roomy, by simp, ?_⟩
  simp

theorem contains_eq (h : Represents capacity s members) (i : Nat) :
    s.contains i = decide (i ∈ members) := by
  rw [Bool.eq_iff_iff, h.contains_iff, decide_eq_true_iff]

theorem toList_eq (h : Represents capacity s members) : s.toList = members.sort := by
  apply eq_of_ascending s.toList_ascending members.sortedLT_sort.pairwise
  intro i
  rw [mem_toList, h.contains_iff, Finset.mem_sort]

theorem size_eq (h : Represents capacity s members) : s.size = members.card := by
  rw [← length_toList, h.toList_eq, Finset.length_sort]

theorem insert {s' : DenseSet} {i : Nat} {fresh : Bool} (h : Represents capacity s members)
    (hinsert : s.insert i = .ok (fresh, s')) :
    i < capacity ∧ fresh = decide (i ∉ members) ∧
      Represents capacity s' (Insert.insert i members) := by
  obtain ⟨hi, hfresh, hroomy, hcap, hcontains⟩ := insert_ok h.roomy hinsert
  rw [h.capacity_eq] at hi
  refine ⟨hi, ?_, hcap.trans h.capacity_eq, hroomy, ?_, ?_⟩
  · rw [hfresh, h.contains_eq, decide_not]
  · intro j hj
    rcases Finset.mem_insert.mp hj with heq | hmem
    · rwa [heq]
    · exact h.below j hmem
  · intro j
    rw [hcontains, Finset.mem_insert, Bool.or_eq_true, h.contains_iff, decide_eq_true_iff,
      or_comm]

theorem insert_refused {i : Nat} {f : Fault} (h : Represents capacity s members)
    (hinsert : s.insert i = .error f) : capacity ≤ i ∧ f = .bitOutside i capacity := by
  unfold DenseSet.insert at hinsert
  rw [h.capacity_eq] at hinsert
  split at hinsert
  · cases hinsert
  · rename_i hi
    exact ⟨Nat.le_of_not_lt hi, (Except.error.inj hinsert).symm⟩

end Represents

/-- The bit set answers like the finite set, and stands for it afterwards. -/
theorem call_agrees (capacity : Nat) :
    Copies.Agree (fun _ => True) (Represents capacity) call (callSet capacity) := by
  intro s members h c _
  cases c with
  | insert i =>
    cases hinsert : s.insert i with
    | error f =>
      obtain ⟨hi, hf⟩ := h.insert_refused hinsert
      simp only [call, callSet, hinsert, if_neg (Nat.not_lt.mpr hi), hf]
      exact ⟨trivial, h⟩
    | ok answer =>
      obtain ⟨hi, hfresh, hafter⟩ := h.insert hinsert
      simp only [call, callSet, hinsert, if_pos hi, hfresh]
      exact ⟨trivial, hafter⟩
  | contains i => exact ⟨congrArg Answer.verdict (h.contains_eq i), h⟩
  | count => exact ⟨congrArg Answer.number h.size_eq, h⟩
  | clear => exact ⟨rfl, h.clear⟩
  | list => exact ⟨congrArg Answer.members h.toList_eq, h⟩

/-! ### Runs -/

/-- Everything that can be read off the bit set is so of the finite set. -/
structure Reads (capacity : Nat) (s : DenseSet) (members : Finset Nat) : Prop where
  capacity_eq : s.capacity = capacity
  below : ∀ i ∈ members, i < capacity
  /-- Numbers beyond the capacity can be looked for too. -/
  contains_eq : ∀ i, s.contains i = decide (i ∈ members)
  size_eq : s.size = members.card
  toList_eq : s.toList = members.sort
  /-- A sweep ends, and comes to the members in ascending order. -/
  sweep : Yields (Sweep.next s) (Sweep.start s) members.sort

theorem Represents.reads {capacity : Nat} {s : DenseSet} {members : Finset Nat}
    (h : Represents capacity s members) : Reads capacity s members := by
  refine ⟨h.capacity_eq, h.below, h.contains_eq, h.size_eq, h.toList_eq, ?_⟩
  rw [← h.toList_eq]
  exact Sweep.yields_toList s

/-- Whatever is called of a bit set and its copies, in any order: the answers are those of a
finite set and its copies, and so is what can be read off them afterwards. -/
theorem run_refines_finset (capacity : Nat) (calls : List (CopyCall Call)) :
    (Copies.run call [withCapacity capacity] calls).1 =
        (Copies.run (callSet capacity) [∅] calls).1 ∧
      List.Forall₂ (Reads capacity) (Copies.run call [withCapacity capacity] calls).2
        (Copies.run (callSet capacity) [∅] calls).2 := by
  have hstart : List.Forall₂ (Represents capacity) [withCapacity capacity] [∅] :=
    .cons (Represents.withCapacity capacity) .nil
  obtain ⟨hanswers, hafter⟩ := (call_agrees capacity).run hstart fun _ _ _ => trivial
  refine ⟨hanswers, hafter.imp ?_⟩
  intro s members h
  exact h.reads

end ArchetypeStore.DenseSet

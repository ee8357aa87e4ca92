import ArchetypeStore.Proofs.CountingSort
import ArchetypeStore.Proofs.DenseSet.Refinement

/-! # Counting sort is exact

  A list is sorted where it stands when its values are distinct and below the capacity.
  Otherwise it stays as it is, and its first value that does not go with those before it
  decides the error. The bit set is cleared first, so nothing of what was done with it before
  shows, and it comes back with the values up to that point.
-/

namespace ArchetypeStore.CountingSort

/-! ### Writing over a list -/

/-- An iteration over as many values as the list has leaves nothing of the list. -/
theorem overwrite_eq {σ α : Type} {next : σ → Option (α × σ)} {c : σ} {written old : List α}
    (h : Yields next c written) (hlength : written.length = old.length) :
    overwrite next c old = written := by
  induction old generalizing c written with
  | nil =>
    rw [List.length_eq_zero_iff.mp hlength]
    rfl
  | cons b old ih =>
    cases written with
    | nil => cases hlength
    | cons a written =>
      obtain ⟨c', hnext, hrest⟩ := h
      simp only [overwrite, hnext, ih hrest (Nat.succ.inj hlength)]

/-! ### Two ways to sort -/

/-- How the two ways to sort end: the values are the marks, or one of them is refused. -/
inductive Sorts (marks : DenseSet) (values : List Nat) : Except StoreError (List Nat) × DenseSet →
    Except StoreError Unit × List Nat × DenseSet → Prop where
  | all {marks' : DenseSet} (done : Marked marks.clear marks' values) :
      Sorts marks values (.ok marks'.toList, marks') (.ok (), marks'.toList, marks')
  | stopped {marks' : DenseSet} {earlier later : List Nat} {v : Nat} {e : StoreError}
      (split : values = earlier ++ v :: later) (done : Marked marks.clear marks' earlier)
      (why : Refuses marks' v e) : Sorts marks values (.error e, marks') (.error e, values, marks')

theorem sorts {marks : DenseSet} (hroomy : marks.Roomy) (values : List Nat) :
    Sorts marks values (sortWith values marks) (sortInPlace values marks) := by
  have hmark := mark_ends (DenseSet.roomy_clear hroomy) values
  unfold sortWith sortInPlace
  cases hmarked : mark marks.clear values with
  | mk answer marks' =>
    rw [hmarked] at hmark
    cases hmark with
    | all done =>
      -- There are as many marks as values.
      have hwritten := overwrite_eq (DenseSet.Sweep.yields_toList marks') done.toList_perm.length_eq
      simp only [hwritten]
      exact .all done
    | stopped split done why => exact .stopped split done why

/-- Sorting in place answers what sorting answers, and the list is the sorted one. -/
theorem sortWith_eq_sortInPlace {marks : DenseSet} (hroomy : marks.Roomy) (values : List Nat) :
    sortWith values marks =
      ((sortInPlace values marks).1.map fun _ => (sortInPlace values marks).2.1,
        (sortInPlace values marks).2.2) := by
  have hsorts := sorts hroomy values
  generalize sortWith values marks = answered, sortInPlace values marks = placed at hsorts ⊢
  cases hsorts with
  | all => rfl
  | stopped => rfl

/-! ### How a sort ends -/

/-- Values that can be sorted. -/
structure Sortable (capacity : Nat) (values : List Nat) : Prop where
  distinct : values.Nodup
  below : ∀ v ∈ values, v < capacity

/-- Why a value does not go with those before it. -/
inductive Offends (capacity : Nat) (earlier : List Nat) (v : Nat) : StoreError → Prop where
  | outside (high : capacity ≤ v) : Offends capacity earlier v (.valueOutOfRange v capacity)
  | again (there : v ∈ earlier) : Offends capacity earlier v (.duplicateValue v)

/-- How a sort in place ends: the answer, the list, and the values that were marked. -/
inductive Ending (capacity : Nat) (values : List Nat) :
    Except StoreError Unit → List Nat → List Nat → Prop where
  | sorted {sorted : List Nat} (accepted : Sortable capacity values) (perm : sorted.Perm values)
      (ascending : sorted.Pairwise (· < ·)) : Ending capacity values (.ok ()) sorted values
  | stopped {earlier later : List Nat} {v : Nat} {e : StoreError}
      (split : values = earlier ++ v :: later) (before : Sortable capacity earlier)
      (why : Offends capacity earlier v e) : Ending capacity values (.error e) values earlier

section

variable {capacity : Nat} {values : List Nat}

theorem Offends.not_sortable {earlier later : List Nat} {v : Nat} {e : StoreError}
    (h : Offends capacity earlier v e) : ¬ Sortable capacity (earlier ++ v :: later) := by
  intro hsortable
  cases h with
  | outside high =>
    have := hsortable.below v (by simp)
    omega
  | again there => exact (List.nodup_append.mp hsortable.distinct).2.2 v there v (by simp) rfl

/-- A sort accepts what can be sorted and nothing else. -/
theorem Ending.accepts_iff {answer : Except StoreError Unit} {list marked : List Nat}
    (h : Ending capacity values answer list marked) :
    answer = .ok () ↔ Sortable capacity values := by
  cases h with
  | sorted accepted => simp [accepted]
  | stopped split _ why =>
    rw [split]
    simp [why.not_sortable]

theorem Marked.sortable {marks marks' : DenseSet} (h : Marked marks marks' values)
    (hcap : marks.capacity = capacity) : Sortable capacity values := by
  refine ⟨h.distinct, ?_⟩
  rw [← hcap]
  exact h.below

/-- A set in which values were marked is the set of these values. -/
theorem Marked.represents {marks marks' : DenseSet} (h : Marked marks.clear marks' values)
    (hcap : marks.capacity = capacity) : DenseSet.Represents capacity marks' values.toFinset := by
  refine ⟨h.capacity_eq.trans hcap, h.roomy, ?_, ?_⟩
  · intro i hi
    exact (h.sortable hcap).below i (List.mem_toFinset.mp hi)
  · intro i
    rw [h.mem_iff, List.mem_toFinset]

theorem Refuses.offends {marks marks' : DenseSet} {earlier : List Nat} {v : Nat} {e : StoreError}
    (h : Refuses marks' v e) (hmarked : Marked marks.clear marks' earlier)
    (hcap : marks.capacity = capacity) : Offends capacity earlier v e := by
  cases h with
  | outside high =>
    rw [hmarked.capacity_eq, DenseSet.capacity_clear, hcap] at high ⊢
    exact .outside high
  | again _ there => exact .again ((hmarked.mem_iff v).mp there)

theorem sortInPlace_ends {marks : DenseSet} (hroomy : marks.Roomy)
    (hcap : marks.capacity = capacity) (values : List Nat) :
    ∃ marked, Ending capacity values (sortInPlace values marks).1 (sortInPlace values marks).2.1
        marked ∧
      DenseSet.Represents capacity (sortInPlace values marks).2.2 marked.toFinset := by
  have hsorts := sorts hroomy values
  generalize sortWith values marks = answered, sortInPlace values marks = placed at hsorts ⊢
  cases hsorts with
  | @all marks' done =>
    exact ⟨values, .sorted (done.sortable hcap) done.toList_perm marks'.toList_ascending,
      done.represents hcap⟩
  | stopped split done why =>
    exact ⟨_, .stopped split (done.sortable hcap) (why.offends done hcap), done.represents hcap⟩

end

/-! ### Bit sets that were used before -/

/-- What may have been done with a bit set. -/
inductive Use where
  | call (c : DenseSet.Call)
  | sort (values : List Nat)

/-- The bit set after a use. -/
def use (marks : DenseSet) : Use → DenseSet
  | .call c => (DenseSet.call marks c).2
  | .sort values => (sortInPlace values marks).2.2

/-- A bit set of this capacity after some uses. -/
def used (capacity : Nat) (uses : List Use) : DenseSet :=
  uses.foldl use (DenseSet.withCapacity capacity)

theorem clear_insert {marks marks' : DenseSet} {i : Nat} {fresh : Bool}
    (h : marks.insert i = .ok (fresh, marks')) : marks'.clear = marks.clear := by
  unfold DenseSet.insert at h
  split at h
  · cases h
    simp [DenseSet.clear, Array.ext_iff]
  · cases h

theorem clear_clear (marks : DenseSet) : marks.clear.clear = marks.clear := by
  simp [DenseSet.clear]

theorem clear_mark (marks : DenseSet) (values : List Nat) :
    (mark marks values).2.clear = marks.clear := by
  induction values generalizing marks with
  | nil => rfl
  | cons v values ih =>
    unfold mark
    split
    · rfl
    · rfl
    · rename_i marks' hinsert
      rw [ih, clear_insert hinsert]

theorem clear_sortInPlace (marks : DenseSet) (values : List Nat) :
    (sortInPlace values marks).2.2.clear = marks.clear := by
  have hclear := clear_mark marks.clear values
  rw [clear_clear] at hclear
  unfold sortInPlace
  split
  all_goals
    rename_i hmarked
    rw [hmarked] at hclear
    exact hclear

theorem clear_call (marks : DenseSet) (c : DenseSet.Call) :
    (DenseSet.call marks c).2.clear = marks.clear := by
  cases c with
  | insert i =>
    cases hinsert : marks.insert i with
    | error f => simp only [DenseSet.call, hinsert]
    | ok answer => simpa only [DenseSet.call, hinsert] using clear_insert hinsert
  | clear => exact clear_clear marks
  | contains i => rfl
  | count => rfl
  | list => rfl

/-- A cleared bit set is like a new one. -/
theorem clear_used (capacity : Nat) (uses : List Use) :
    (used capacity uses).clear = DenseSet.withCapacity capacity := by
  have hstep : ∀ marks, (uses.foldl use marks).clear = marks.clear := by
    induction uses with
    | nil => intro marks; rfl
    | cons u uses ih =>
      intro marks
      rw [List.foldl_cons, ih]
      cases u with
      | call c => exact clear_call marks c
      | sort values => exact clear_sortInPlace marks values
  rw [used, hstep]
  simp [DenseSet.clear, DenseSet.withCapacity]

/-! ### Exactness -/

/-- What a sort of a list with a bit set comes to. -/
structure Exact (capacity : Nat) (values : List Nat) (marks : DenseSet) : Prop where
  accepts_iff : (sortInPlace values marks).1 = .ok () ↔ Sortable capacity values
  /-- The list is sorted or kept, and the bit set holds what was marked. -/
  ends : ∃ marked,
    Ending capacity values (sortInPlace values marks).1 (sortInPlace values marks).2.1 marked ∧
      DenseSet.Reads capacity (sortInPlace values marks).2.2 marked.toFinset
  /-- Nothing of what was in the bit set shows. -/
  as_new : sortInPlace values marks = sortInPlace values (DenseSet.withCapacity capacity)
  sortWith_eq : sortWith values marks =
    ((sortInPlace values marks).1.map fun _ => (sortInPlace values marks).2.1,
      (sortInPlace values marks).2.2)
  sort_eq : sort values capacity = (sortWith values marks).1

theorem exact_withCapacity (capacity : Nat) (values : List Nat) :
    Exact capacity values (DenseSet.withCapacity capacity) := by
  have hroomy := DenseSet.roomy_withCapacity capacity
  obtain ⟨marked, hends, hset⟩ := sortInPlace_ends hroomy rfl values
  exact ⟨hends.accepts_iff, ⟨marked, hends, hset.reads⟩, rfl, sortWith_eq_sortInPlace hroomy values,
    rfl⟩

/-- A sort looks at nothing but the room of the bit set. -/
theorem Exact.of_clear {capacity : Nat} {values : List Nat} {marks marks' : DenseSet}
    (h : Exact capacity values marks) (hclear : marks'.clear = marks.clear) :
    Exact capacity values marks' := by
  have hplace : sortInPlace values marks' = sortInPlace values marks := by
    unfold sortInPlace
    rw [hclear]
  have hwith : sortWith values marks' = sortWith values marks := by
    unfold sortWith
    rw [hclear]
  constructor
  · rw [hplace]
    exact h.accepts_iff
  · rw [hplace]
    exact h.ends
  · rw [hplace]
    exact h.as_new
  · rw [hplace, hwith]
    exact h.sortWith_eq
  · rw [hwith]
    exact h.sort_eq

/-- Whatever was done with the bit set before: the list is sorted when that is possible and
kept when it is not, the first value that does not fit decides the error, and everything is
as with a new bit set. -/
theorem sorts_exactly (capacity : Nat) (uses : List Use) (values : List Nat) :
    Exact capacity values (used capacity uses) := by
  apply (exact_withCapacity capacity values).of_clear
  rw [clear_used]
  exact (clear_used capacity []).symm

end ArchetypeStore.CountingSort

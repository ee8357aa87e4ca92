import ArchetypeStore.CountingSort
import ArchetypeStore.Proofs.DenseSet
import Mathlib.Data.List.Induction

/-! # What counting sort does

  The values are marked up to the first one that is out of range or there before. When there
  is none the marks are the values, each once, and come back in ascending order.
-/

namespace ArchetypeStore.CountingSort

/-! ### Marking -/

/-- The values were marked, one after the other. -/
structure Marked (marks marks' : DenseSet) (values : List Nat) : Prop where
  roomy : marks'.Roomy
  capacity_eq : marks'.capacity = marks.capacity
  distinct : values.Nodup
  below : ∀ v ∈ values, v < marks.capacity
  fresh : ∀ v ∈ values, marks.contains v = false
  contains_iff : ∀ j, marks'.contains j = true ↔ marks.contains j = true ∨ j ∈ values

/-- Why a value is not marked. -/
inductive Refuses (marks : DenseSet) (v : Nat) : StoreError → Prop where
  | outside (high : marks.capacity ≤ v) : Refuses marks v (.valueOutOfRange v marks.capacity)
  | again (low : v < marks.capacity) (there : marks.contains v = true) :
      Refuses marks v (.duplicateValue v)

/-- How marking ends: after all values, or before the first one that is refused. -/
inductive MarkEnds (marks : DenseSet) (values : List Nat) :
    Except StoreError Unit × DenseSet → Prop where
  | all {marks' : DenseSet} (done : Marked marks marks' values) :
      MarkEnds marks values (.ok (), marks')
  | stopped {marks' : DenseSet} {earlier later : List Nat} {v : Nat} {e : StoreError}
      (split : values = earlier ++ v :: later) (done : Marked marks marks' earlier)
      (why : Refuses marks' v e) : MarkEnds marks values (.error e, marks')

section

variable {marks marks' : DenseSet}

theorem Marked.nil (hroomy : marks.Roomy) : Marked marks marks [] :=
  ⟨hroomy, rfl, List.nodup_nil, by simp, by simp, by simp⟩

theorem Marked.cons {marks₁ : DenseSet} (hroomy : marks.Roomy) {v : Nat} {values : List Nat}
    (hinsert : marks.insert v = .ok (true, marks₁)) (h : Marked marks₁ marks' values) :
    Marked marks marks' (v :: values) := by
  obtain ⟨hlow, hfresh, -, hcap, hcontains⟩ := DenseSet.insert_ok hroomy hinsert
  -- The first value is marked when the others are looked at.
  have hold : ∀ w ∈ values, marks.contains w = false ∧ w ≠ v := by
    intro w hw
    simpa [hcontains] using h.fresh w hw
  refine ⟨h.roomy, h.capacity_eq.trans hcap, ?_, ?_, ?_, ?_⟩
  · exact List.nodup_cons.mpr ⟨fun hv => (hold v hv).2 rfl, h.distinct⟩
  · refine List.forall_mem_cons.mpr ⟨hlow, ?_⟩
    rw [← hcap]
    exact h.below
  · exact List.forall_mem_cons.mpr ⟨by simpa using hfresh.symm, fun w hw => (hold w hw).1⟩
  · intro j
    rw [h.contains_iff, hcontains]
    simp only [Bool.or_eq_true, decide_eq_true_eq, List.mem_cons, or_assoc]

theorem MarkEnds.cons {marks₁ : DenseSet} (hroomy : marks.Roomy) {v : Nat} {values : List Nat}
    (hinsert : marks.insert v = .ok (true, marks₁)) {answer : Except StoreError Unit × DenseSet}
    (h : MarkEnds marks₁ values answer) : MarkEnds marks (v :: values) answer := by
  cases h with
  | all done => exact .all (done.cons hroomy hinsert)
  | stopped split done why =>
    subst split
    exact .stopped (List.cons_append ..).symm (done.cons hroomy hinsert) why

theorem mark_ends (hroomy : marks.Roomy) (values : List Nat) :
    MarkEnds marks values (mark marks values) := by
  induction values generalizing marks with
  | nil => exact .all (.nil hroomy)
  | cons v values ih =>
    unfold mark
    split
    · rename_i hinsert
      exact .stopped (List.nil_append _).symm (.nil hroomy)
        (.outside (DenseSet.insert_error hinsert))
    · rename_i hinsert
      obtain ⟨hlow, hfresh, -⟩ := DenseSet.insert_ok hroomy hinsert
      exact .stopped (List.nil_append _).symm (.nil hroomy)
        (.again hlow (by simpa using hfresh.symm))
    · rename_i hinsert
      exact (ih (DenseSet.insert_ok hroomy hinsert).2.2.1).cons hroomy hinsert

/-- What was marked in an empty set is what is in it. -/
theorem Marked.mem_iff {values : List Nat} (h : Marked marks.clear marks' values) (i : Nat) :
    marks'.contains i = true ↔ i ∈ values := by
  simp [h.contains_iff]

theorem Marked.toList_perm {values : List Nat} (h : Marked marks.clear marks' values) :
    marks'.toList.Perm values := by
  -- Both lists have each member once, so their members decide.
  rw [List.perm_ext_iff_of_nodup (marks'.toList_ascending.imp Nat.ne_of_lt) h.distinct]
  intro i
  rw [DenseSet.mem_toList, h.mem_iff]

end

/-! ### The first repetition -/

/-- The first element of a list that is there before. -/
def FirstRepeat {α : Type} (elements : List α) (a : α) : Prop :=
  ∃ earlier later, elements = earlier ++ a :: later ∧ earlier.Nodup ∧ a ∈ earlier

theorem FirstRepeat.two_le_count {α : Type} [DecidableEq α] {elements : List α} {a : α}
    (h : FirstRepeat elements a) : 2 ≤ elements.count a := by
  obtain ⟨earlier, later, rfl, -, ha⟩ := h
  have := List.one_le_count_iff.mpr ha
  simp only [List.count_append, List.count_cons_self]
  omega

theorem exists_firstRepeat {α : Type} {elements : List α} (h : ¬ elements.Nodup) :
    ∃ a, FirstRepeat elements a := by
  -- An element at the end matters only when those before it are distinct.
  induction elements using List.reverseRecOn with
  | nil => exact absurd List.nodup_nil h
  | append_singleton init a ih =>
    by_cases hinit : init.Nodup
    · by_cases ha : a ∈ init
      · exact ⟨a, init, [], rfl, hinit, ha⟩
      · exact absurd (List.nodup_append.mpr ⟨hinit, by simp, by
          intro x hx y hy heq
          rw [heq, List.mem_singleton.mp hy] at hx
          exact ha hx⟩) h
    · obtain ⟨b, earlier, later, rfl, hnodup, hb⟩ := ih hinit
      exact ⟨b, earlier, later ++ [a], by simp, hnodup, hb⟩

/-- The part before a first repetition does not go beyond another one. -/
theorem FirstRepeat.eq_of_longer {α : Type} {a b : α} {earlier later more later' : List α}
    (hsplit : a :: later = more ++ b :: later') (ha : a ∈ earlier)
    (hnodup : (earlier ++ more).Nodup) : a = b := by
  cases more with
  | nil => exact (List.cons_eq_cons.mp hsplit).1
  | cons c more =>
    have hc : a = c := (List.cons_eq_cons.mp hsplit).1
    exact absurd hc ((List.nodup_append.mp hnodup).2.2 a ha c List.mem_cons_self)

theorem FirstRepeat.unique {α : Type} {elements : List α} {a b : α} (ha : FirstRepeat elements a)
    (hb : FirstRepeat elements b) : a = b := by
  obtain ⟨earlier, later, rfl, hnodup, ha⟩ := ha
  obtain ⟨earlier', later', hsplit, hnodup', hb⟩ := hb
  rcases List.append_eq_append_iff.mp hsplit with ⟨more, rfl, hmore⟩ | ⟨more, rfl, hmore⟩
  · exact eq_of_longer hmore ha hnodup'
  · exact (eq_of_longer hmore hb hnodup).symm

/-! ### Sorting -/

/-- How sorting ends. -/
inductive SortEnds (capacity : Nat) (values : List Nat) : Except StoreError (List Nat) → Prop where
  | sorted {sorted : List Nat} (distinct : values.Nodup) (below : ∀ v ∈ values, v < capacity)
      (perm : sorted.Perm values) (ascending : sorted.Pairwise (· < ·)) :
      SortEnds capacity values (.ok sorted)
  | outOfRange {v : Nat} (there : v ∈ values) (high : capacity ≤ v) :
      SortEnds capacity values (.error (.valueOutOfRange v capacity))
  | repeated {v : Nat} (first : FirstRepeat values v) :
      SortEnds capacity values (.error (.duplicateValue v))

theorem sort_ends (values : List Nat) (capacity : Nat) :
    SortEnds capacity values (sort values capacity) := by
  have hroomy := DenseSet.roomy_clear (DenseSet.roomy_withCapacity capacity)
  have hmark := mark_ends hroomy values
  unfold sort sortWith
  cases hmarked : mark (DenseSet.withCapacity capacity).clear values with
  | mk answer marks =>
    rw [hmarked] at hmark
    cases hmark with
    | all done => exact .sorted done.distinct done.below done.toList_perm marks.toList_ascending
    | @stopped _ earlier later v e split done why =>
      subst split
      cases why with
      | outside high =>
        rw [done.capacity_eq] at high ⊢
        exact .outOfRange (by simp) high
      | again _ there =>
        exact .repeated ⟨earlier, later, rfl, done.distinct, (done.mem_iff v).mp there⟩

/-- What sorting answers is the values, ascending. -/
theorem sort_ok {values sorted : List Nat} {capacity : Nat}
    (h : sort values capacity = .ok sorted) :
    values.Nodup ∧ sorted.Perm values ∧ sorted.Pairwise (· < ·) := by
  have hends := sort_ends values capacity
  rw [h] at hends
  cases hends with
  | sorted distinct _ perm ascending => exact ⟨distinct, perm, ascending⟩

/-- Sorting is refused only for a value out of range or listed twice. -/
theorem sort_error {values : List Nat} {capacity : Nat} {e : StoreError}
    (h : sort values capacity = .error e) :
    (∃ v ∈ values, capacity ≤ v ∧ e = .valueOutOfRange v capacity) ∨
      ∃ v ∈ values, e = .duplicateValue v ∧ 2 ≤ values.count v := by
  have hends := sort_ends values capacity
  rw [h] at hends
  cases hends with
  | outOfRange there high => exact .inl ⟨_, there, high, rfl⟩
  | repeated first =>
    have htwice := first.two_le_count
    exact .inr ⟨_, List.count_pos_iff.mp (by omega), rfl, htwice⟩

/-- Distinct values below the capacity are sorted. -/
theorem sort_of_nodup {values : List Nat} {capacity : Nat} (hnodup : values.Nodup)
    (hbound : ∀ v ∈ values, v < capacity) :
    ∃ sorted, sort values capacity = .ok sorted := by
  cases h : sort values capacity with
  | ok sorted => exact ⟨sorted, rfl⟩
  | error e =>
    rcases sort_error h with ⟨v, hv, hle, -⟩ | ⟨v, -, -, htwice⟩
    · have := hbound v hv
      omega
    · have := List.nodup_iff_count.mp hnodup v
      omega

/-- Values within the capacity are refused for the first one that repeats. -/
theorem sort_of_firstRepeat {values : List Nat} {capacity v : Nat}
    (hbound : ∀ w ∈ values, w < capacity) (h : FirstRepeat values v) :
    sort values capacity = .error (.duplicateValue v) := by
  have hends := sort_ends values capacity
  cases hsort : sort values capacity with
  | ok sorted =>
    have := List.nodup_iff_count.mp (sort_ok hsort).1 v
    have := h.two_le_count
    omega
  | error e =>
    rw [hsort] at hends
    cases hends with
    | outOfRange there high => exact absurd (hbound _ there) (Nat.not_lt.mpr high)
    | repeated first => rw [first.unique h]

end ArchetypeStore.CountingSort

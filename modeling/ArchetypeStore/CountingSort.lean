import ArchetypeStore.DenseSet.Sweep

/-! # Counting sort

  Distinct numbers below a capacity are sorted by marking each in a bit set and reading
  the marks back in ascending order. The first number in list order that lies outside the
  capacity, or that was marked before, decides the error.
-/

namespace ArchetypeStore.CountingSort

/-! ### Sorting -/

/-- Mark every value in turn. On an error the marks made so far stay. -/
def mark (marks : DenseSet) : List Nat → Except StoreError Unit × DenseSet
  | [] => (.ok (), marks)
  | value :: rest =>
    match marks.insert value with
    | .error _ => (.error (.valueOutOfRange value marks.capacity), marks)
    | .ok (false, _) => (.error (.duplicateValue value), marks)
    | .ok (true, marks') => mark marks' rest

/-- Sort with a bit set of the caller, whose old members are removed first. The set that
comes back holds what was marked. -/
def sortWith (values : List Nat) (marks : DenseSet) :
    Except StoreError (List Nat) × DenseSet :=
  match mark marks.clear values with
  | (.error e, marks') => (.error e, marks')
  | (.ok (), marks') => (.ok marks'.toList, marks')

/-- Sort distinct values below `capacity`. -/
def sort (values : List Nat) (capacity : Nat) : Except StoreError (List Nat) :=
  (sortWith values (DenseSet.withCapacity capacity)).1

/-! ### Sorting in place -/

/-- Write what an iteration comes to over the elements of a list, until one of the two is
at its end. -/
def overwrite {σ α : Type} (next : σ → Option (α × σ)) (c : σ) : List α → List α
  | [] => []
  | a :: rest =>
    match next c with
    | none => a :: rest
    | some (b, c) => b :: overwrite next c rest

/-- Sort a list where it stands: a sweep over the marks writes over it. A list that is
refused stays as it is. -/
def sortInPlace (values : List Nat) (marks : DenseSet) :
    Except StoreError Unit × List Nat × DenseSet :=
  match mark marks.clear values with
  | (.error e, marks) => (.error e, values, marks)
  | (.ok (), marks) =>
    (.ok (), overwrite (DenseSet.Sweep.next marks) (DenseSet.Sweep.start marks) values, marks)

end ArchetypeStore.CountingSort

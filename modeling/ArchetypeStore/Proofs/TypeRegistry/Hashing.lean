import ArchetypeStore.Proofs.Catalog.Requests
import ArchetypeStore.Proofs.TypeRegistry.Stability
import Mathlib.Data.List.Sort

/-! # Hashing a set of types

  A list of types is hashed in three steps: its types are registered, their indices are
  sorted, and an index that is listed twice is turned back into a name. The list is refused
  exactly when a type occurs twice, and then the first type that repeats an earlier one is
  named. Otherwise the answer is the hash of the ascending indices, which neither the order
  of the list nor anything registered later can change.

  When several types repeat, the one that repeats first depends on the order of the list,
  and with it the name in the error.
-/

namespace ArchetypeStore.TypeRegistry

open CountingSort (FirstRepeat exists_firstRepeat)

variable {T : Type} [ComponentType T]

/-! ### Indices of a list -/

section

variable {ix ix' : TypeRegistry T}

omit [ComponentType T] in
theorem Lists.in_range {indices : List Nat} {ts : List T} (h : ix.Lists indices ts) :
    ∀ index ∈ indices, index < ix.size + 1 := by
  intro index hindex
  obtain ⟨t, -, ht⟩ := h.type_of_mem hindex
  exact Nat.lt_succ_of_le (type?_le ht).2

/-- The index that repeats first belongs to the type that repeats first. -/
theorem Lists.firstRepeat (hwf : ix.Wf) {indices : List Nat} {ts : List T}
    (h : ix.Lists indices ts) {t : T} (hrepeat : FirstRepeat ts t) :
    ∃ index, FirstRepeat indices index ∧ ix.type? index = some t := by
  obtain ⟨earlier, later, rfl, hnodup, ht⟩ := hrepeat
  -- The indices are cut where the types are.
  obtain ⟨front, behind, rfl, hfront, hbehind⟩ :
      ∃ front behind, indices = front ++ behind ∧ ix.Lists front earlier ∧
        ix.Lists behind (t :: later) := by
    unfold Lists at h
    rw [List.map_append, List.map_eq_append_iff] at h
    obtain ⟨front, behind, rfl, hfront, hbehind⟩ := h
    exact ⟨front, behind, rfl, hfront, hbehind⟩
  cases behind with
  | nil => cases hbehind
  | cons index behind =>
    obtain ⟨htype, -⟩ := List.cons.inj hbehind
    obtain ⟨index', hindex', htype'⟩ := hfront.index_of_mem ht
    refine ⟨index, ⟨front, behind, rfl, (hwf.nodup_iff hfront).mpr hnodup, ?_⟩, htype⟩
    rw [hwf.index_inj htype htype']
    exact hindex'

end

theorem eq_mergeSort {sorted indices : List Nat} (hperm : sorted.Perm indices)
    (hsorted : sorted.Pairwise (· ≤ ·)) : sorted = indices.mergeSort (· ≤ ·) := by
  apply (hperm.trans (List.mergeSort_perm indices _).symm).eq_of_pairwise _ hsorted
    (List.pairwise_mergeSort' (· ≤ ·) indices)
  intro a b _ _ hab hba
  exact Nat.le_antisymm hab hba

variable [DecidableEq T]

/-! ### The two answers -/

section

variable {ix ix' : TypeRegistry T} {ts : List T} {indices : List Nat}

/-- A list that repeats a type is refused, and the first type that repeats is named. -/
theorem hashOf_of_firstRepeat (h : ix.Wf) (hall : ix.registerAll ts = (.ok indices, ix'))
    {t : T} (hrepeat : FirstRepeat ts t) :
    ix.hashOf ts = (.error (.duplicateComponentType (ComponentType.name t)), ix') := by
  obtain ⟨h', -, hlists⟩ := registerAll_ok h hall
  obtain ⟨index, hindex, htype⟩ := hlists.firstRepeat h' hrepeat
  have hsort := CountingSort.sort_of_firstRepeat hlists.in_range hindex
  simp [hashOf, hall, hsort, nameDuplicate, typeName?, htype]

/-- Different types have the hash of their indices, from the least to the greatest. -/
theorem hashOf_of_nodup (h : ix.Wf) (hall : ix.registerAll ts = (.ok indices, ix'))
    (hnodup : ts.Nodup) :
    ix.hashOf ts = (.ok (setHash (indices.mergeSort (· ≤ ·))), ix') := by
  obtain ⟨h', -, hlists⟩ := registerAll_ok h hall
  have hindices : indices.Nodup := (h'.nodup_iff hlists).mpr hnodup
  obtain ⟨sorted, hsort⟩ := CountingSort.sort_of_nodup hindices hlists.in_range
  obtain ⟨-, hperm, hascending⟩ := CountingSort.sort_ok hsort
  have hsorted := eq_mergeSort hperm (hascending.imp Nat.le_of_lt)
  simp [hashOf, hall, hsort, hsorted]

/-! ### What an answer says -/

/-- The answer to a list whose types have the given indices. -/
structure HashesSet (ts : List T) (indices : List Nat) (answer : Except StoreError UInt64) :
    Prop where
  refused_iff : (∃ e, answer = .error e) ↔ ¬ ts.Nodup
  /-- The first element of the list that is there before is named. -/
  named : ∀ t, FirstRepeat ts t →
    answer = .error (.duplicateComponentType (ComponentType.name t))
  hash : ts.Nodup → answer = .ok (setHash (indices.mergeSort (· ≤ ·)))
  in_range : ∀ value capacity, answer ≠ .error (.valueOutOfRange value capacity)
  no_number : ∀ value, answer ≠ .error (.duplicateValue value)

/-- A list whose types are accepted has an answer, and its types are registered. -/
theorem hashOf_answer (h : ix.Wf) (hall : ix.registerAll ts = (.ok indices, ix')) :
    ∃ answer, ix.hashOf ts = (answer, ix') ∧ HashesSet ts indices answer := by
  by_cases hnodup : ts.Nodup
  · refine ⟨_, hashOf_of_nodup h hall hnodup, ?_, ?_, fun _ => rfl, ?_, ?_⟩
    · simp [hnodup]
    · intro t hrepeat
      have htwice := hrepeat.two_le_count
      have := List.nodup_iff_count.mp hnodup t
      omega
    · intro value capacity
      simp
    · intro value
      simp
  · obtain ⟨t, hrepeat⟩ := exists_firstRepeat hnodup
    refine ⟨_, hashOf_of_firstRepeat h hall hrepeat, ?_, ?_, ?_, ?_, ?_⟩
    · simp [hnodup]
    · intro t' hrepeat'
      have hsame := hashOf_of_firstRepeat h hall hrepeat
      rw [hashOf_of_firstRepeat h hall hrepeat'] at hsame
      exact (congrArg Prod.fst hsame).symm
    · exact fun hn => absurd hn hnodup
    · intro value capacity
      simp
    · intro value
      simp

end

/-! ### Hashing again -/

/-- Types that have indices are hashed in any order without registering anything. -/
theorem hashOf_perm {ix : TypeRegistry T} (h : ix.Wf) {ts ts' : List T} {indices : List Nat}
    (hlists : ix.Lists indices ts) (hperm : ts'.Perm ts) :
    ∃ answer, ix.hashOf ts' = (answer, ix) ∧ HashesSet ts' indices answer := by
  obtain ⟨indices', hlists'⟩ : ∃ indices', ix.Lists indices' ts' := by
    apply lists_of_registered
    intro t ht
    obtain ⟨index, -, htype⟩ := hlists.index_of_mem (hperm.mem_iff.mp ht)
    exact ⟨index, htype⟩
  obtain ⟨answer, hanswer, hhashes⟩ := hashOf_answer h (registerAll_known h hlists')
  refine ⟨answer, hanswer, { hhashes with hash := fun hnodup => ?_ }⟩
  rw [hhashes.hash hnodup]
  -- The same indices in another order are the same when they are sorted.
  have hindices := Lists.perm h hlists' hlists hperm hnodup
  have hsorted : indices'.mergeSort (· ≤ ·) = indices.mergeSort (· ≤ ·) :=
    eq_mergeSort ((List.mergeSort_perm indices' _).trans hindices)
      (List.pairwise_mergeSort' (· ≤ ·) indices')
  rw [hsorted]

/-- Lists with the same first repetition, or with none, have the same answer. -/
theorem HashesSet.congr {ts ts' : List T} {indices : List Nat}
    {answer answer' : Except StoreError UInt64} (h : HashesSet ts indices answer)
    (h' : HashesSet ts' indices answer') (hperm : ts'.Perm ts)
    (halone : ∀ t t', 2 ≤ ts.count t → 2 ≤ ts.count t' → t = t') : answer' = answer := by
  by_cases hnodup : ts.Nodup
  · rw [h.hash hnodup, h'.hash (hperm.nodup_iff.mpr hnodup)]
  · obtain ⟨t, hrepeat⟩ := exists_firstRepeat hnodup
    obtain ⟨t', hrepeat'⟩ := exists_firstRepeat fun hn => hnodup (hperm.nodup_iff.mp hn)
    have hsame : t' = t := by
      apply halone
      · rw [← hperm.count_eq]
        exact hrepeat'.two_le_count
      · exact hrepeat.two_le_count
    rw [h.named t hrepeat, h'.named t' hrepeat', hsame]

/-- In every state of the registry a list whose types are accepted is refused exactly when
one of them occurs twice, and named is the first one that repeats; other lists have the hash
of their ascending indices. From then on every order of the list is answered this way
without registering anything, and, unless several types repeat, with the same answer. -/
theorem create_hashed {width maxWidth : Nat} {ix ix' : TypeRegistry T}
    (hcreate : create width maxWidth = .ok ix) (calls : List (Call T)) {ts : List T}
    {indices : List Nat} (hall : (ix.after calls).registerAll ts = (.ok indices, ix')) :
    ∃ answer, (ix.after calls).hashOf ts = (answer, ix') ∧
      ts.map ix'.index? = indices.map some ∧ HashesSet ts indices answer ∧
        ∀ ts', ts'.Perm ts → ∀ more, ∃ answer',
          (ix'.after more).hashOf ts' = (answer', ix'.after more) ∧
            HashesSet ts' indices answer' ∧
              ((∀ t t', 2 ≤ ts.count t → 2 ≤ ts.count t' → t = t') → answer' = answer) := by
  have hwf := (after_wf (create_wf hcreate) calls).1
  obtain ⟨h', -, hlists⟩ := registerAll_ok hwf hall
  obtain ⟨answer, hanswer, hhashes⟩ := hashOf_answer hwf hall
  refine ⟨answer, hanswer, hlists.map_index? h', hhashes, fun ts' hperm more => ?_⟩
  obtain ⟨hmore, hext⟩ := after_wf h' more
  obtain ⟨answer', hanswer', hhashes'⟩ := hashOf_perm hmore (hlists.mono hext) hperm
  exact ⟨answer', hanswer', hhashes', fun halone => hhashes.congr hhashes' hperm halone⟩

/-- A type is known before its list is hashed, the other one makes the table wider, and a
third one is refused before the list is hashed in another order. -/
theorem create_hashed_crowded : ∃ ix ix' : TypeRegistry Crowd, create 1 2 = .ok ix ∧
    (ix.after [.register .first]).registerAll [.near, .first] = (.ok [2, 1], ix') ∧
      ((ix.after [.register .first]).hashOf [.near, .first]).1 = .ok (31 * 1 + 2) ∧
        ((ix'.after [.registerAll [.twin, .near]]).hashOf [.first, .near]).1 =
          .ok (31 * 1 + 2) := by
  have hcreate : create 1 2 = .ok (⟨#[], 1, 2, [], .ample⟩ : TypeRegistry Crowd) := rfl
  have hall : (after ⟨#[], 1, 2, [], .ample⟩ [.register .first]).registerAll [.near, .first] =
      (.ok [2, 1],
        (⟨#[.first, .near], 2, 2, [(1, 2), (0, 1)], .ample⟩ : TypeRegistry Crowd)) := rfl
  have hsorted : [1, 2] = [2, 1].mergeSort (· ≤ ·) := eq_mergeSort (by decide) (by decide)
  obtain ⟨answer, hanswer, -, hhashes, hlater⟩ := create_hashed hcreate [.register .first] hall
  obtain ⟨answer', hanswer', hhashes', -⟩ :=
    hlater [.first, .near] (by decide) [.registerAll [.twin, .near]]
  refine ⟨_, _, hcreate, hall, ?_, ?_⟩
  · rw [hanswer, hhashes.hash (by decide), ← hsorted]
    rfl
  · rw [hanswer', hhashes'.hash (by decide), ← hsorted]
    rfl

/-- Two types repeat, and in each order another one does so first. -/
theorem hash_depends_on_order : ∃ ix : TypeRegistry Crowd, create 1 2 = .ok ix ∧
    ([.first, .first, .near, .near] : List Crowd).Perm [.first, .near, .near, .first] ∧
      (ix.registerAll [.first, .near, .near, .first]).1 = .ok [1, 2, 2, 1] ∧
        (ix.hashOf [.first, .near, .near, .first]).1 =
          .error (.duplicateComponentType "Near") ∧
        ((ix.hashOf [.first, .near, .near, .first]).2.hashOf [.first, .first, .near, .near]).1 =
          .error (.duplicateComponentType "First") := by
  exact ⟨⟨#[], 1, 2, [], .ample⟩, rfl, by decide, by decide +kernel, by decide +kernel,
    by decide +kernel⟩

end ArchetypeStore.TypeRegistry

import ArchetypeStore.BoundedStack
import ArchetypeStore.Proofs.Allocation

/-! # A bounded stack as a list

  The words on a stack, the one pushed last first. A push that is accepted puts its word
  in front, a pop takes the first word away, and copying a drained stack bottom first to
  a wider one keeps the list.
-/

namespace ArchetypeStore.BoundedStack

variable {α : Type} {marker : α}

/-- The words on the stack, the one pushed last first. -/
def toList (s : BoundedStack α marker) : List α := (List.range s.top).reverse.map s.slot

theorem length_toList (s : BoundedStack α marker) : s.toList.length = s.size := by
  simp [toList, size]

@[simp] theorem toList_ofCapacity (capacity : Nat) :
    (ofCapacity capacity : BoundedStack α marker).toList = [] := rfl

section allocate

variable {m : Memory} {purpose : Purpose} {width : WordWidth} {capacity : Nat}

/-- A stack that was made has the capacity asked for and nothing on it. -/
theorem allocate_ok {s : BoundedStack α marker}
    (h : allocate m purpose width capacity = .ok s) : s = ofCapacity capacity := by
  unfold allocate at h
  cases hblock : Buffer.reserve m purpose width capacity with
  | error e =>
    rw [hblock] at h
    cases h
  | ok block =>
    rw [hblock] at h
    exact (Except.ok.inj h).symm

theorem withCapacity_ok {s : BoundedStack α marker} (h : withCapacity width capacity = .ok s) :
    s = ofCapacity capacity := allocate_ok h

/-- Memory may refuse the slots of a stack. With as many slots as there are 31-bit numbers
there is no other reason why a stack is not to be had. -/
theorem allocate_error {e : StoreError} (hcapacity : capacity ≤ 1 <<< 31)
    (h : (allocate m purpose .bits32 capacity : Except StoreError (BoundedStack α marker)) =
      .error e) : e = .allocationFailed (capacity * WordWidth.bits32.bytes) := by
  have hbytes : capacity * WordWidth.bits32.bytes < Memory.ampleLimit := by
    simp only [WordWidth.bytes, Memory.ampleLimit]
    omega
  unfold allocate at h
  rw [Buffer.reserve_eq hbytes] at h
  cases hblock : m.allocate purpose ⟨capacity * WordWidth.bits32.bytes, WordWidth.bits32.bytes⟩ with
  | error e' =>
    rw [hblock] at h
    cases h
    exact Memory.allocate_error hblock
  | ok block =>
    rw [hblock] at h
    cases h

/-- A stack without slots needs no memory. -/
@[simp] theorem allocate_zero :
    (allocate m purpose .bits32 0 : Except StoreError (BoundedStack α marker)) =
      .ok (ofCapacity 0) := rfl

end allocate

/-! ### Slots -/

theorem slot_setSlot_self (s : BoundedStack α marker) (i : Nat) (value : α) :
    (s.setSlot i value)[i]?.getD marker = value := by
  unfold setSlot
  split
  · rename_i hi
    simp [hi]
  · rename_i hi
    have hsize : (s.slots ++ Array.replicate (i - s.slots.size) marker).size = i := by
      simp
      omega
    rw [Array.getElem?_push, if_pos hsize.symm]
    rfl

theorem slot_setSlot_ne (s : BoundedStack α marker) {i j : Nat} (value : α) (h : j ≠ i) :
    (s.setSlot i value)[j]?.getD marker = s.slot j := by
  unfold setSlot slot
  split
  · rw [Array.getElem?_setIfInBounds_ne (Ne.symm h)]
  · rename_i hi
    have hsize : (s.slots ++ Array.replicate (i - s.slots.size) marker).size = i := by
      simp
      omega
    rw [Array.getElem?_push, hsize, if_neg h, Array.getElem?_append]
    split
    · rfl
    · -- Slots that were never written hold the marker before and after.
      rename_i hj
      rw [Array.getElem?_eq_none (by omega : s.slots.size ≤ j), Array.getElem?_replicate]
      split <;> rfl

/-- The words below the slot that is written stay as they are. -/
theorem map_slot_setSlot (s : BoundedStack α marker) (n capacity top : Nat) (value : α) :
    (List.range n).reverse.map (⟨capacity, s.setSlot n value, top⟩ : BoundedStack α marker).slot =
      (List.range n).reverse.map s.slot := by
  apply List.map_congr_left
  intro j hj
  have hlt : j < n := by simpa using hj
  exact slot_setSlot_ne s value (Nat.ne_of_lt hlt)

/-! ### Popping -/

@[simp] theorem pop_capacity (s : BoundedStack α marker) : s.pop.2.capacity = s.capacity := by
  unfold pop
  split <;> rfl

theorem pop_top (s : BoundedStack α marker) : s.pop.2.top = s.top - 1 := by
  unfold pop
  split
  · simp_all
  · rfl

/-- An empty stack stays as it is and yields nothing. -/
theorem pop_of_toList_nil {s : BoundedStack α marker} (h : s.toList = []) :
    s.pop = (none, s) := by
  have htop : s.top = 0 := by simpa [toList] using h
  simp [pop, htop]

/-- The first word of the list is the one that a pop takes. -/
theorem pop_of_toList_cons {s : BoundedStack α marker} {value : α} {rest : List α}
    (h : s.toList = value :: rest) : s.pop.1 = some value ∧ s.pop.2.toList = rest := by
  obtain ⟨capacity, slots, top⟩ := s
  cases top with
  | zero => simp [toList] at h
  | succ n =>
    simp only [toList, List.range_succ, List.reverse_append, List.reverse_cons,
      List.reverse_nil, List.nil_append, List.cons_append, List.map_cons,
      List.cons.injEq] at h
    refine ⟨?_, ?_⟩
    · simp [pop, h.1]
    · rw [← h.2]
      simp only [pop, toList, Nat.add_one_ne_zero, if_false, Nat.add_sub_cancel]
      exact map_slot_setSlot ⟨capacity, slots, n + 1⟩ n capacity n marker

/-- A pop brings nothing new. -/
theorem mem_of_mem_pop {s : BoundedStack α marker} {value : α} (h : value ∈ s.pop.2.toList) :
    value ∈ s.toList := by
  cases hlist : s.toList with
  | nil =>
    rw [pop_of_toList_nil hlist, hlist] at h
    exact h
  | cons first rest =>
    rw [(pop_of_toList_cons hlist).2] at h
    exact List.mem_cons_of_mem _ h

theorem popMany_toList (s : BoundedStack α marker) (n : Nat) :
    (s.popMany n).1 = s.toList.take n := by
  induction n generalizing s with
  | zero => rfl
  | succ n ih =>
    cases h : s.toList with
    | nil => simp [popMany, pop_of_toList_nil h]
    | cons value rest =>
      obtain ⟨hvalue, hrest⟩ := pop_of_toList_cons h
      have hpop : s.pop = (some value, s.pop.2) := by rw [← hvalue]
      rw [popMany, hpop]
      simp [ih, hrest]

theorem drain_toList (s : BoundedStack α marker) : s.drain.1 = s.toList := by
  rw [drain, popMany_toList, ← length_toList, List.take_length]

/-! ### Pushing -/

variable [DecidableEq α]

theorem push_toList {s : BoundedStack α marker} {value : α} (hvalue : value ≠ marker)
    (hroom : s.top < s.capacity) : (s.push value).2.toList = value :: s.toList := by
  simp only [push, hvalue, hroom, if_true, if_false, toList, List.range_succ,
    List.reverse_append, List.reverse_cons, List.reverse_nil, List.nil_append,
    List.cons_append, List.map_cons, map_slot_setSlot]
  rw [slot, slot_setSlot_self]

@[simp] theorem push_capacity (s : BoundedStack α marker) (value : α) :
    (s.push value).2.capacity = s.capacity := by
  unfold push
  split
  · rfl
  · split <;> rfl

theorem push_top {s : BoundedStack α marker} {value : α} (hvalue : value ≠ marker)
    (hroom : s.top < s.capacity) : (s.push value).2.top = s.top + 1 := by
  simp [push, hvalue, hroom]

/-- A push brings at most its word. -/
theorem mem_of_mem_push {s : BoundedStack α marker} {value pushed : α}
    (h : value ∈ (s.push pushed).2.toList) : value = pushed ∨ value ∈ s.toList := by
  by_cases hpushed : pushed = marker
  · rw [push, if_pos hpushed] at h
    exact .inr h
  · by_cases hroom : s.top < s.capacity
    · rw [push_toList hpushed hroom] at h
      exact List.mem_cons.mp h
    · rw [push, if_neg hpushed, if_neg hroom] at h
      exact .inr h

theorem mem_of_mem_pushAll {s : BoundedStack α marker} {value : α} {values : List α}
    (h : value ∈ (s.pushAll values).toList) : value ∈ values ∨ value ∈ s.toList := by
  induction values generalizing s with
  | nil => exact .inr h
  | cons pushed rest ih =>
    rcases ih (s := (s.push pushed).2) h with hrest | hpush
    · exact .inl (List.mem_cons_of_mem _ hrest)
    · rcases mem_of_mem_push hpush with rfl | hold
      · exact .inl (List.mem_cons_self ..)
      · exact .inr hold

/-- Words that are no marker and for which there is room are all accepted. -/
theorem pushAll_toList {s : BoundedStack α marker} {values : List α}
    (hvalues : ∀ value ∈ values, value ≠ marker) (hroom : s.top + values.length ≤ s.capacity) :
    (s.pushAll values).toList = values.reverse ++ s.toList ∧
      (s.pushAll values).capacity = s.capacity ∧
      (s.pushAll values).top = s.top + values.length := by
  induction values generalizing s with
  | nil => exact ⟨rfl, rfl, rfl⟩
  | cons value rest ih =>
    have hvalue : value ≠ marker := hvalues value (List.mem_cons_self ..)
    have hlen : s.top + (rest.length + 1) ≤ s.capacity := hroom
    have htop := push_top (s := s) hvalue (by omega)
    -- The first push leaves room for the rest.
    obtain ⟨hlist, hcap, hsize⟩ := ih (s := (s.push value).2)
      (fun v hv => hvalues v (List.mem_cons_of_mem _ hv)) (by rw [htop, push_capacity]; omega)
    have hpush := push_toList (s := s) hvalue (by omega)
    refine ⟨?_, ?_, ?_⟩
    · change ((s.push value).2.pushAll rest).toList = _
      rw [hlist, hpush]
      simp
    · exact hcap.trans (push_capacity s value)
    · change ((s.push value).2.pushAll rest).top = _
      rw [hsize, htop, List.length_cons]
      omega

end ArchetypeStore.BoundedStack

import ArchetypeStore.BoundedStack.Session
import ArchetypeStore.Proofs.BoundedStack

/-! # The loops of a stack end

  Between two calls the slots below the top hold words, and the others hold the marker. Within
  a call this is so too, except for the slot that is handed over, which is as it was before
  its handover. Every step keeps this, whatever exchanges are lost. So an exchange goes through
  unless it is lost, a swap brings out a word at once, and every call comes to the answer that it
  has without its steps, as long as no exchange is lost for ever.
-/

namespace ArchetypeStore.BoundedStack

variable {α : Type} {marker : α} {s : BoundedStack α marker}

/-! ### Slots -/

/-- The slots below `n` hold words, and the others hold the marker. -/
def FilledTo (s : BoundedStack α marker) (n : Nat) : Prop := ∀ i, s.slot i = marker ↔ n ≤ i

theorem slot_written (s : BoundedStack α marker) (i j capacity top : Nat) (value : α) :
    (⟨capacity, s.setSlot i value, top⟩ : BoundedStack α marker).slot j =
      if j = i then value else s.slot j := by
  by_cases hj : j = i
  · rw [if_pos hj, hj]
    exact slot_setSlot_self s i value
  · rw [if_neg hj]
    exact slot_setSlot_ne s value hj

theorem filledTo_ofCapacity (capacity : Nat) :
    (ofCapacity capacity : BoundedStack α marker).FilledTo 0 := by
  intro i
  simp [slot, ofCapacity]

theorem FilledTo.fill {n : Nat} (h : s.FilledTo n) {value : α} (hvalue : value ≠ marker)
    (capacity top : Nat) :
    (⟨capacity, s.setSlot n value, top⟩ : BoundedStack α marker).FilledTo (n + 1) := by
  intro i
  rw [slot_written]
  by_cases hi : i = n
  · rw [if_pos hi]
    exact iff_of_false hvalue (by omega)
  · rw [if_neg hi, h i]
    omega

theorem FilledTo.take {n : Nat} (h : s.FilledTo (n + 1)) (capacity top : Nat) :
    (⟨capacity, s.setSlot n marker, top⟩ : BoundedStack α marker).FilledTo n := by
  intro i
  rw [slot_written]
  by_cases hi : i = n
  · rw [if_pos hi]
    exact iff_of_true rfl (by omega)
  · rw [if_neg hi, h i]
    omega

/-! ### Drains -/

theorem pop_of_top_ne_zero (h : s.top ≠ 0) : s.pop.1 = some (s.slot (s.top - 1)) := by
  rw [BoundedStack.pop, if_neg h]

theorem drain_of_top_eq_zero (h : s.top = 0) : s.drain = ([], s) := by
  rw [drain, size, h, popMany]

/-- A drain pops once and drains what is left. -/
theorem drain_of_top_ne_zero (h : s.top ≠ 0) :
    s.drain = (s.slot (s.top - 1) :: s.pop.2.drain.1, s.pop.2.drain.2) := by
  have hpop : s.pop = (some (s.slot (s.top - 1)), s.pop.2) := by rw [← pop_of_top_ne_zero h]
  rw [drain, size, ← Nat.sub_one_add_one h, popMany, Nat.sub_one_add_one h, hpop, drain, size,
    pop_top]

/-! ### Between calls -/

/-- Between calls the slots below the top hold words, and the others hold the marker. -/
structure Settled (s : BoundedStack α marker) : Prop where
  top_le : s.top ≤ s.capacity
  filled : s.FilledTo s.top

theorem settled_ofCapacity (capacity : Nat) :
    (ofCapacity capacity : BoundedStack α marker).Settled :=
  ⟨Nat.zero_le _, filledTo_ofCapacity capacity⟩

theorem Settled.pop (h : s.Settled) : s.pop.2.Settled := by
  unfold BoundedStack.pop
  split
  · exact h
  · rename_i htop
    have hfilled := h.filled
    rw [← Nat.sub_one_add_one htop] at hfilled
    exact ⟨Nat.le_trans (Nat.sub_le ..) h.top_le, hfilled.take _ _⟩

theorem Settled.drain (h : s.Settled) : s.drain.2.Settled := by
  induction htop : s.top generalizing s with
  | zero =>
    rw [drain_of_top_eq_zero htop]
    exact h
  | succ n ih =>
    rw [drain_of_top_ne_zero (by omega)]
    refine ih h.pop ?_
    rw [pop_top]
    omega

variable [DecidableEq α]

theorem Settled.push (h : s.Settled) (value : α) : (s.push value).2.Settled := by
  unfold BoundedStack.push
  split
  · exact h
  · rename_i hvalue
    split
    · rename_i hroom
      exact ⟨hroom, h.filled.fill hvalue _ _⟩
    · exact h

theorem Settled.call (h : s.Settled) (c : Call α) : (s.call c).2.Settled := by
  cases c with
  | push value => exact h.push value
  | pop => exact h.pop
  | size => exact h
  | drain => exact h.drain

/-- The slot that a push claims holds the marker. -/
theorem Settled.pushWaits_eq (h : s.Settled) : s.pushWaits = false := by
  have hmarker : s.slot s.top = marker := (h.filled s.top).mpr (Nat.le_refl _)
  simp [pushWaits, hmarker]

/-- The slot that a pop gives up holds a word. -/
theorem Settled.popWaits_eq (h : s.Settled) : s.popWaits = false := by
  unfold popWaits
  by_cases htop : s.top = 0
  · simp [htop]
  · have hword : s.slot (s.top - 1) ≠ marker := by
      rw [ne_eq, h.filled]
      omega
    simp [hword]

/-! ### Stages -/

/-- What the cells hold at a stage of a call. -/
inductive InOrder (s : BoundedStack α marker) : Stage α → Prop where
  | ready (settled : s.Settled) : InOrder s .ready
  | claim {value : α} (fresh : value ≠ marker) (settled : s.Settled) :
      InOrder s (.claim value s.top)
  /-- The top counts a slot that still holds the marker. -/
  | fill {value : α} {slot : Nat} (fresh : value ≠ marker) (top_eq : s.top = slot + 1)
      (top_le : s.top ≤ s.capacity) (filled : s.FilledTo slot) : InOrder s (.fill value slot)
  | giveUp {drained : Option (List α)} (settled : s.Settled) : InOrder s (.giveUp drained s.top)
  /-- The top does not count a slot that still holds a word. -/
  | take {drained : Option (List α)} {slot : Nat} (top_eq : s.top = slot)
      (slot_lt : slot < s.capacity) (filled : s.FilledTo (slot + 1)) :
      InOrder s (.take drained slot)

namespace Session

variable {m m' : Session α marker}

omit [DecidableEq α] in
theorem inOrder_popped (h : m.stack.Settled) (drained : Option (List α)) (value : Option α) :
    (m.popped drained value).stack.InOrder (m.popped drained value).stage := by
  cases drained with
  | none => exact .ready h
  | some words =>
    cases value with
    | none => exact .ready h
    | some value => exact .giveUp h

/-- Every step keeps the cells in order, if its exchange is lost or not. -/
theorem inOrder_step (h : m.stack.InOrder m.stage) (lost : Bool) :
    (m.step lost).stack.InOrder (m.step lost).stage := by
  obtain ⟨s, stage, calls, answers⟩ := m
  have hin : s.InOrder stage := h
  cases hin with
  | ready settled =>
    cases calls with
    | nil => exact .ready settled
    | cons c calls =>
      cases c with
      | push value =>
        by_cases hvalue : value = marker
        · simp only [step, begin, if_pos hvalue]
          exact .ready settled
        · simp only [step, begin, if_neg hvalue]
          exact .claim hvalue settled
      | pop => exact .giveUp settled
      | size => exact .ready settled
      | drain => exact .giveUp settled
  | claim fresh settled =>
    simp only [step]
    split
    · rename_i hroom
      split
      · exact .fill fresh rfl hroom settled.filled
      · exact .claim fresh settled
    · exact .ready settled
  | fill fresh top_eq top_le filled =>
    simp only [step]
    split
    · refine .ready ⟨top_le, ?_⟩
      have hfilled := filled.fill fresh s.capacity s.top
      rwa [← top_eq] at hfilled
    · exact .fill fresh top_eq top_le filled
  | giveUp settled =>
    by_cases htop : s.top = 0
    · simp only [step, if_pos htop]
      exact inOrder_popped settled ..
    · -- The slot below the top is one of the stack, so the pop is not stopped.
      have hslot : s.top - 1 < s.capacity :=
        Nat.sub_one_lt_of_le (Nat.pos_of_ne_zero htop) settled.top_le
      simp only [step, if_neg htop, if_pos hslot]
      split
      · refine .take rfl hslot ?_
        rw [Nat.sub_one_add_one htop]
        exact settled.filled
      · exact .giveUp settled
  | @take drained slot top_eq slot_lt filled =>
    simp only [step]
    have hword : s.slot slot ≠ marker := by
      rw [ne_eq, filled]
      omega
    rw [if_neg hword]
    refine inOrder_popped ⟨?_, ?_⟩ ..
    · show s.top ≤ s.capacity
      omega
    · show FilledTo ⟨s.capacity, s.setSlot slot marker, s.top⟩ s.top
      rw [top_eq]
      exact filled.take _ _

/-- The cells are in order after any number of steps. -/
theorem inOrder_steps (h : m.stack.InOrder m.stage) (lost : Nat → Bool) (n : Nat) :
    (m.steps lost n).stack.InOrder (m.steps lost n).stage := by
  induction n generalizing m lost with
  | zero => exact h
  | succ n ih => exact ih (inOrder_step h _) _

/-! ### Lost exchanges -/

/-- No exchange is lost for ever. -/
def Fair (lost : Nat → Bool) : Prop := ∀ n, ∃ k, n ≤ k ∧ lost k = false

theorem Fair.later {lost : Nat → Bool} (h : Fair lost) (n : Nat) :
    Fair fun k => lost (n + k) := by
  intro i
  obtain ⟨k, hk, hlost⟩ := h (n + i)
  refine ⟨k - n, by omega, ?_⟩
  show lost (n + (k - n)) = false
  rw [Nat.add_sub_of_le (by omega), hlost]

theorem steps_add (m : Session α marker) (lost : Nat → Bool) (n i : Nat) :
    m.steps lost (n + i) = (m.steps lost n).steps (fun k => lost (n + k)) i := by
  induction n generalizing m lost with
  | zero => simp [steps]
  | succ n ih =>
    rw [Nat.add_right_comm, steps, ih, steps]
    simp only [Nat.add_right_comm]

/-- The one session comes to the other, whatever exchanges are lost, unless for ever. -/
def LeadsTo (m m' : Session α marker) : Prop := ∀ lost, Fair lost → ∃ n, m.steps lost n = m'

namespace LeadsTo

theorem refl (m : Session α marker) : LeadsTo m m := fun _ _ => ⟨0, rfl⟩

theorem trans {m'' : Session α marker} (h : LeadsTo m m') (h' : LeadsTo m' m'') :
    LeadsTo m m'' := by
  intro lost fair
  obtain ⟨n, rfl⟩ := h lost fair
  obtain ⟨i, rfl⟩ := h' _ (fair.later n)
  exact ⟨n + i, steps_add ..⟩

theorem of_step (h : ∀ lost, m.step lost = m') : LeadsTo m m' :=
  fun lost _ => ⟨1, h (lost 0)⟩

/-- An exchange that would go through is tried again as long as it is lost. -/
theorem of_exchange (hlost : m.step true = m) (hdone : m.step false = m') : LeadsTo m m' := by
  intro lost fair
  obtain ⟨k, -, hk⟩ := fair 0
  induction k generalizing lost with
  | zero => exact ⟨1, by rw [steps, hk, hdone, steps]⟩
  | succ k ih =>
    cases hfirst : lost 0 with
    | false => exact ⟨1, by rw [steps, hfirst, hdone, steps]⟩
    | true =>
      have hfair : Fair fun k => lost (k + 1) := by
        simpa only [Nat.add_comm] using fair.later 1
      obtain ⟨n, hn⟩ := ih _ hfair hk
      exact ⟨n + 1, by rw [steps, hfirst, hlost, hn]⟩

end LeadsTo

/-! ### Calls -/

variable {calls : List (Call α)} {answers : List (Answer α)}

/-- The marker is not accepted. -/
theorem leadsTo_push_marker : LeadsTo ⟨s, .ready, .push marker :: calls, answers⟩
    ⟨(s.push marker).2, .ready, calls, answers ++ [.verdict (s.push marker).1]⟩ := by
  apply LeadsTo.of_step
  intro lost
  simp [step, begin, answer, BoundedStack.push]

theorem leadsTo_claim {value : α} (hvalue : value ≠ marker) :
    LeadsTo ⟨s, .ready, .push value :: calls, answers⟩
      ⟨s, .claim value s.top, calls, answers⟩ := by
  apply LeadsTo.of_step
  intro lost
  simp [step, begin, goTo, hvalue]

/-- A push claims the slot above the top. -/
theorem leadsTo_fill {value : α} (hvalue : value ≠ marker) (hroom : s.top < s.capacity) :
    LeadsTo ⟨s, .ready, .push value :: calls, answers⟩
      ⟨{ s with top := s.top + 1 }, .fill value s.top, calls, answers⟩ := by
  refine (leadsTo_claim hvalue).trans (LeadsTo.of_exchange ?_ ?_)
  · simp [step, goTo, hroom]
  · simp [step, goTo, setTop, hroom]

/-- A push whose slot holds the marker is answered. -/
theorem leadsTo_push {value : α} (hvalue : value ≠ marker) (h : s.pushWaits = false) :
    LeadsTo ⟨s, .ready, .push value :: calls, answers⟩
      ⟨(s.push value).2, .ready, calls, answers ++ [.verdict (s.push value).1]⟩ := by
  by_cases hroom : s.top < s.capacity
  · have hmarker : s.slot s.top = marker := by simpa [pushWaits, hroom] using h
    refine (leadsTo_fill hvalue hroom).trans (LeadsTo.of_exchange ?_ ?_)
    · simp [step]
    · rw [BoundedStack.push, if_neg hvalue, if_pos hroom]
      exact if_pos ⟨hmarker, rfl⟩
  · refine (leadsTo_claim hvalue).trans (LeadsTo.of_step ?_)
    intro lost
    simp [step, answer, BoundedStack.push, hvalue, hroom]

/-- A pop gives up the slot below the top. -/
theorem leadsTo_take (htop : s.top ≠ 0) (hle : s.top ≤ s.capacity) (drained : Option (List α)) :
    LeadsTo ⟨s, .giveUp drained s.top, calls, answers⟩
      ⟨{ s with top := s.top - 1 }, .take drained (s.top - 1), calls, answers⟩ := by
  have hslot : s.top - 1 < s.capacity := Nat.sub_one_lt_of_le (Nat.pos_of_ne_zero htop) hle
  apply LeadsTo.of_exchange
  · simp [step, goTo, htop]
  · simp [step, goTo, setTop, htop, hslot]

omit [DecidableEq α] in
/-- How a pop ends does not depend on the stage. -/
theorem popped_stage (stage : Stage α) (drained : Option (List α)) (value : Option α) :
    (⟨s, stage, calls, answers⟩ : Session α marker).popped drained value =
      (⟨s, .ready, calls, answers⟩ : Session α marker).popped drained value := by
  cases drained with
  | none => rfl
  | some words => cases value <;> rfl

/-- A pop whose slot holds a word ends with it. -/
theorem leadsTo_popped (hle : s.top ≤ s.capacity) (h : s.popWaits = false)
    (drained : Option (List α)) : LeadsTo ⟨s, .giveUp drained s.top, calls, answers⟩
      ((⟨s.pop.2, .ready, calls, answers⟩ : Session α marker).popped drained s.pop.1) := by
  by_cases htop : s.top = 0
  · apply LeadsTo.of_step
    intro lost
    simp only [step, BoundedStack.pop, if_pos htop]
    exact popped_stage ..
  · have hword : s.slot (s.top - 1) ≠ marker := by simpa [popWaits, htop] using h
    refine (leadsTo_take htop hle drained).trans (LeadsTo.of_step ?_)
    intro lost
    rw [BoundedStack.pop, if_neg htop]
    exact (if_neg hword).trans (popped_stage ..)

/-- A drain takes one word after the other. -/
theorem leadsTo_drained (h : s.Settled) (words : List α) :
    LeadsTo ⟨s, .giveUp (some words) s.top, calls, answers⟩
      ⟨s.drain.2, .ready, calls, answers ++ [.words (words.reverse ++ s.drain.1)]⟩ := by
  induction htop : s.top generalizing s words with
  | zero =>
    rw [← htop]
    have hpopped : LeadsTo ⟨s, .giveUp (some words) s.top, calls, answers⟩ _ :=
      leadsTo_popped h.top_le h.popWaits_eq (some words)
    rw [drain_of_top_eq_zero htop, List.append_nil]
    rwa [BoundedStack.pop, if_pos htop] at hpopped
  | succ n ih =>
    rw [← htop]
    have hpopped : LeadsTo ⟨s, .giveUp (some words) s.top, calls, answers⟩ _ :=
      leadsTo_popped h.top_le h.popWaits_eq (some words)
    have hne : s.top ≠ 0 := by omega
    have hbelow : s.pop.2.top = n := by
      rw [pop_top]
      omega
    rw [pop_of_top_ne_zero hne] at hpopped
    have hrest := ih h.pop (s.slot (s.top - 1) :: words) hbelow
    rw [← hbelow] at hrest
    rw [drain_of_top_ne_zero hne]
    simpa using hpopped.trans hrest

/-- Every call comes to the answer that it has without its steps. -/
theorem leadsTo_call (h : s.Settled) (c : Call α) :
    LeadsTo ⟨s, .ready, c :: calls, answers⟩
      ⟨(s.call c).2, .ready, calls, answers ++ [(s.call c).1]⟩ := by
  cases c with
  | push value =>
    by_cases hvalue : value = marker
    · rw [hvalue]
      exact leadsTo_push_marker
    · exact leadsTo_push hvalue h.pushWaits_eq
  | pop =>
    have hbegin : LeadsTo ⟨s, .ready, .pop :: calls, answers⟩
        ⟨s, .giveUp none s.top, calls, answers⟩ := LeadsTo.of_step fun _ => rfl
    exact hbegin.trans (leadsTo_popped h.top_le h.popWaits_eq none)
  | size => exact LeadsTo.of_step fun _ => rfl
  | drain =>
    have hbegin : LeadsTo ⟨s, .ready, .drain :: calls, answers⟩
        ⟨s, .giveUp (some []) s.top, calls, answers⟩ := LeadsTo.of_step fun _ => rfl
    exact hbegin.trans (leadsTo_drained h [])

/-- So do all calls of a session. -/
theorem leadsTo_run (h : s.Settled) (calls : List (Call α)) :
    LeadsTo ⟨s, .ready, calls, answers⟩
      ⟨(run call s calls).2, .ready, [], answers ++ (run call s calls).1⟩ := by
  induction calls generalizing s answers with
  | nil =>
    simp only [run, List.append_nil]
    exact LeadsTo.refl _
  | cons c calls ih =>
    have hrest : LeadsTo ⟨(s.call c).2, .ready, calls, answers ++ [(s.call c).1]⟩ _ :=
      ih (h.call c)
    simp only [List.append_assoc, List.singleton_append] at hrest
    exact (leadsTo_call h c).trans hrest

end Session

end ArchetypeStore.BoundedStack

import ArchetypeStore.Proofs.BoundedStack.Session
import ArchetypeStore.Proofs.Copies

/-! # A bounded stack is a list of bounded length

  Seen through its calls, a stack is the list of its words, the one pushed last first. The marker
  and words without room are turned away, a pop takes the first word off the list, and a drain
  takes all. This is so of the calls carried out at once and of the calls taken step by step,
  whatever exchanges are lost on the way: no call waits for ever, because between calls the
  slots hold the list from the bottom up, and the marker from the top on.
-/

namespace ArchetypeStore.BoundedStack

variable {α : Type} {marker : α}

/-! ### What a stack stands for -/

/-- The stack has the capacity and the words, and is between two calls. -/
structure Represents (capacity : Nat) (s : BoundedStack α marker) (words : List α) : Prop where
  capacity_eq : s.capacity = capacity
  settled : s.Settled
  toList_eq : s.toList = words

namespace Represents

variable {capacity : Nat} {s : BoundedStack α marker} {words : List α}

theorem ofCapacity (capacity : Nat) :
    Represents capacity (ofCapacity capacity : BoundedStack α marker) [] :=
  ⟨rfl, settled_ofCapacity capacity, toList_ofCapacity capacity⟩

theorem top_eq (h : Represents capacity s words) : s.top = words.length := by
  rw [← h.toList_eq, length_toList, size]

theorem length_le (h : Represents capacity s words) : words.length ≤ capacity := by
  rw [← h.top_eq, ← h.capacity_eq]
  exact h.settled.top_le

/-- The words lie in the slots from the bottom up. -/
theorem slot_eq (h : Represents capacity s words) (i : Nat) :
    s.slot i = words.reverse[i]?.getD marker := by
  have hreverse : words.reverse = (List.range s.top).map s.slot := by
    rw [← h.toList_eq, toList, ← List.map_reverse, List.reverse_reverse]
  rw [hreverse, List.getElem?_map]
  by_cases hi : i < s.top
  · rw [List.getElem?_range hi]
    rfl
  · rw [List.getElem?_eq_none (by simpa using hi)]
    exact (h.settled.filled i).mpr (Nat.le_of_not_lt hi)

theorem marker_notMem (h : Represents capacity s words) : marker ∉ words := by
  intro hmem
  rw [← h.toList_eq, toList, List.mem_map] at hmem
  obtain ⟨i, hi, hslot⟩ := hmem
  have hlt : i < s.top := by simpa using hi
  have hge := (h.settled.filled i).mp hslot
  omega

theorem pop (h : Represents capacity s words) :
    s.pop.1 = words.head? ∧ Represents capacity s.pop.2 words.tail := by
  have hsettled := h.settled.pop
  have hcapacity := (pop_capacity s).trans h.capacity_eq
  cases words with
  | nil =>
    rw [pop_of_toList_nil h.toList_eq]
    exact ⟨rfl, h⟩
  | cons value rest =>
    obtain ⟨hvalue, hrest⟩ := pop_of_toList_cons h.toList_eq
    exact ⟨hvalue, hcapacity, hsettled, hrest⟩

theorem drain (h : Represents capacity s words) : Represents capacity s.drain.2 [] := by
  induction words generalizing s with
  | nil =>
    rw [drain_of_top_eq_zero h.top_eq]
    exact h
  | cons value rest ih =>
    have hne : s.top ≠ 0 := by
      rw [h.top_eq]
      exact Nat.succ_ne_zero _
    rw [drain_of_top_ne_zero hne]
    exact ih h.pop.2

end Represents

/-! ### Calls -/

variable [DecidableEq α]

/-- Carry out a call of a list of at most `capacity` words. -/
def callList (marker : α) (capacity : Nat) (words : List α) : Call α → Answer α × List α
  | .push value =>
    if value ≠ marker ∧ words.length < capacity then (.verdict true, value :: words)
    else (.verdict false, words)
  | .pop => (.word words.head?, words.tail)
  | .size => (.number words.length, words)
  | .drain => (.words words, [])

theorem Represents.push {capacity : Nat} {s : BoundedStack α marker} {words : List α}
    (h : Represents capacity s words) {value : α} (hvalue : value ≠ marker)
    (hroom : words.length < capacity) :
    (s.push value).1 = true ∧ Represents capacity (s.push value).2 (value :: words) := by
  have hslot : s.top < s.capacity := by rwa [h.top_eq, h.capacity_eq]
  have hcapacity := (push_capacity s value).trans h.capacity_eq
  have hlist : (s.push value).2.toList = value :: words := by
    rw [push_toList hvalue hslot, h.toList_eq]
  refine ⟨?_, hcapacity, h.settled.push value, hlist⟩
  rw [BoundedStack.push, if_neg hvalue, if_pos hslot]

/-- The marker, and any word when the stack is full, leave it as it is. -/
theorem Represents.push_refused {capacity : Nat} {s : BoundedStack α marker} {words : List α}
    (h : Represents capacity s words) {value : α}
    (hrefused : ¬ (value ≠ marker ∧ words.length < capacity)) : s.push value = (false, s) := by
  unfold BoundedStack.push
  by_cases hvalue : value = marker
  · rw [if_pos hvalue]
  · have hfull : ¬ s.top < s.capacity := by
      rw [h.top_eq, h.capacity_eq]
      exact fun hroom => hrefused ⟨hvalue, hroom⟩
    rw [if_neg hvalue, if_neg hfull]

/-- The stack answers like the list, and stands for it afterwards. -/
theorem call_agrees (capacity : Nat) :
    Copies.Agree (fun _ => True) (Represents capacity) (fun s : BoundedStack α marker => s.call)
      (callList marker capacity) := by
  intro s words h c _
  cases c with
  | push value =>
    by_cases hfits : value ≠ marker ∧ words.length < capacity
    · obtain ⟨haccepted, hafter⟩ := h.push hfits.1 hfits.2
      simp only [callList, if_pos hfits]
      exact ⟨congrArg Answer.verdict haccepted, hafter⟩
    · have hrefused := h.push_refused hfits
      simp only [call, callList, if_neg hfits, hrefused]
      exact ⟨trivial, h⟩
  | pop => exact ⟨congrArg Answer.word h.pop.1, h.pop.2⟩
  | size => exact ⟨congrArg Answer.number h.top_eq, h⟩
  | drain => exact ⟨congrArg Answer.words (s.drain_toList.trans h.toList_eq), h.drain⟩

/-! ### Runs -/

omit [DecidableEq α] in
/-- What answers every call alike and is related again answers all calls alike. -/
theorem run_agrees {σ τ : Type} {R : σ → τ → Prop} {act : σ → Call α → Answer α × σ}
    {act' : τ → Call α → Answer α × τ} (h : Copies.Agree (fun _ => True) R act act')
    {s : σ} {t : τ} (hst : R s t) (calls : List (Call α)) :
    (run act s calls).1 = (run act' t calls).1 ∧ R (run act s calls).2 (run act' t calls).2 := by
  induction calls generalizing s t with
  | nil => exact ⟨rfl, hst⟩
  | cons c calls ih =>
    obtain ⟨hanswer, hagain⟩ := h s t hst c trivial
    obtain ⟨hanswers, hrun⟩ := ih hagain
    exact ⟨congrArg₂ List.cons hanswer hanswers, hrun⟩

/-- Everything that can be read off the stack is so of the list. -/
structure Reads (capacity : Nat) (s : BoundedStack α marker) (words : List α) : Prop where
  capacity_eq : s.capacity = capacity
  length_le : words.length ≤ capacity
  size_eq : s.size = words.length
  isEmpty_eq : s.isEmpty = words.isEmpty
  toList_eq : s.toList = words
  marker_notMem : marker ∉ words
  /-- From the bottom up to the top the slots hold the words, and from there on the marker. -/
  slot_eq : ∀ i, s.slot i = words.reverse[i]?.getD marker
  /-- The next call finds its slot as it needs it. -/
  pushWaits_eq : s.pushWaits = false
  popWaits_eq : s.popWaits = false

theorem Represents.reads {capacity : Nat} {s : BoundedStack α marker} {words : List α}
    (h : Represents capacity s words) : Reads capacity s words := by
  refine ⟨h.capacity_eq, h.length_le, h.top_eq, ?_, h.toList_eq, h.marker_notMem, h.slot_eq,
    h.settled.pushWaits_eq, h.settled.popWaits_eq⟩
  rw [isEmpty, h.top_eq]
  cases words <;> rfl

/-- Whatever is called of a stack that was made, in any order: the answers are those of a list of
bounded length, and so is what can be read off the stack afterwards. Taken step by step the
calls come to the same answers and the same stack, whatever exchanges are lost on the way,
unless for ever. And no step, whatever is lost, leaves the cells out of order. -/
theorem run_refines_list {width : WordWidth} {capacity : Nat}
    {s : BoundedStack Int width.least} (hs : withCapacity width capacity = .ok s)
    (calls : List (Call Int)) :
    (run call s calls).1 = (run (callList width.least capacity) [] calls).1 ∧
      Reads capacity (run call s calls).2 (run (callList width.least capacity) [] calls).2 ∧
      (Session.start s calls).LeadsTo (.finished (run call s calls).2 (run call s calls).1) ∧
      ∀ lost n, ((Session.start s calls).steps lost n).stack.InOrder
        ((Session.start s calls).steps lost n).stage := by
  rw [withCapacity_ok hs]
  have hstart : Represents capacity (ofCapacity capacity : BoundedStack Int width.least) [] :=
    .ofCapacity capacity
  obtain ⟨hanswers, hafter⟩ := run_agrees (call_agrees capacity) hstart calls
  refine ⟨hanswers, hafter.reads, ?_, ?_⟩
  · exact Session.leadsTo_run hstart.settled calls
  · exact Session.inOrder_steps (.ready hstart.settled)

/-- Calls of a stack with two slots: the marker, a word without room, and a pop of nothing. -/
def crowding : List (Call Int) :=
  [.push 5, .push WordWidth.bits32.least, .push 7, .push 9, .size, .pop, .push 8, .drain, .pop,
    .push 3]

/-- What they answer. -/
def crowdingAnswers : List (Answer Int) :=
  [.verdict true, .verdict false, .verdict true, .verdict false, .number 2, .word (some 7),
    .verdict true, .words [8, 5], .word none, .verdict true]

/-- Every other exchange is lost. -/
def everyOther (n : Nat) : Bool := n % 2 == 0

theorem fair_everyOther : Session.Fair everyOther := by
  intro n
  refine ⟨2 * n + 1, by omega, ?_⟩
  simp only [everyOther, beq_eq_false_iff_ne]
  omega

theorem run_refines_list_crowding :
    ∃ s : BoundedStack Int WordWidth.bits32.least, withCapacity .bits32 2 = .ok s ∧
      (run call s crowding).1 = crowdingAnswers ∧ Reads 2 (run call s crowding).2 [3] ∧
      Session.Fair everyOther ∧ ∃ n, (Session.start s crowding).steps everyOther n =
        .finished (run call s crowding).2 crowdingAnswers := by
  have hmade : withCapacity .bits32 2 =
      .ok (ofCapacity 2 : BoundedStack Int WordWidth.bits32.least) := rfl
  have hlist : run (callList WordWidth.bits32.least 2) [] crowding = (crowdingAnswers, [3]) := by
    decide
  obtain ⟨hanswers, hreads, hleads, -⟩ := run_refines_list hmade crowding
  rw [hlist] at hanswers hreads
  rw [hanswers] at hleads
  exact ⟨_, hmade, hanswers, hreads, fair_everyOther, hleads _ fair_everyOther⟩

end ArchetypeStore.BoundedStack

import ArchetypeStore.BoundedStack

/-! # Stacks in use

  A stack answers one call after the other, and each call reads and writes one cell at a time:
  the top, or a slot. A push notes the top and claims the slot above it, by an exchange that
  goes through only if the top is still the noted one. Then it hands its word over, by an
  exchange that goes through only if the slot holds the marker. A pop notes the top and gives
  up the slot below it in the same way, and then swaps the marker into the slot until a word
  comes out. A drain pops until there is nothing left.

  An exchange may be lost, that is, not go through although it could. It is tried again, with
  the top noted anew. So every call is a loop or two, and answers only if its loops end.
-/

namespace ArchetypeStore.BoundedStack

variable {α : Type} {marker : α}

/-! ### Calls -/

/-- A call of a stack. -/
inductive Call (α : Type) where
  | push (value : α)
  | pop
  | size
  | drain
  deriving DecidableEq

/-- What a call answers. -/
inductive Answer (α : Type) where
  | verdict (accepted : Bool)
  | word (value : Option α)
  | number (n : Nat)
  | words (values : List α)
  deriving DecidableEq

/-- Carry out calls in turn. -/
def run {σ : Type} (act : σ → Call α → Answer α × σ) (s : σ) :
    List (Call α) → List (Answer α) × σ
  | [] => ([], s)
  | c :: calls =>
    let (answer, s) := act s c
    let (answers, s) := run act s calls
    (answer :: answers, s)

variable [DecidableEq α]

/-- Carry out a call, without its steps. -/
def call (s : BoundedStack α marker) : Call α → Answer α × BoundedStack α marker
  | .push value => (.verdict (s.push value).1, (s.push value).2)
  | .pop => (.word s.pop.1, s.pop.2)
  | .size => (.number s.size, s)
  | .drain => (.words s.drain.1, s.drain.2)

/-! ### Steps -/

/-- Where a call stands. A pop may be part of a drain, which keeps the words that it has
popped so far, the latest first. -/
inductive Stage (α : Type) where
  /-- The next call has not begun. -/
  | ready
  /-- A push has noted the top and is to claim the slot above it. -/
  | claim (value : α) (noted : Nat)
  /-- A push has claimed a slot and is to hand its word over. -/
  | fill (value : α) (slot : Nat)
  /-- A pop has noted the top and is to give up the slot below it. -/
  | giveUp (drained : Option (List α)) (noted : Nat)
  /-- A pop has given up a slot and is to take its word. -/
  | take (drained : Option (List α)) (slot : Nat)
  /-- A pop has looked for a slot that there is not. -/
  | stopped (fault : Fault)
  deriving DecidableEq

/-- A stack, the call that it is in, and the calls to come. -/
structure Session (α : Type) (marker : α) where
  stack : BoundedStack α marker
  stage : Stage α
  /-- The calls that have not begun. -/
  calls : List (Call α)
  /-- The answers so far. -/
  answers : List (Answer α)
  deriving DecidableEq

namespace Session

/-- The session before its first call. -/
def start (s : BoundedStack α marker) (calls : List (Call α)) : Session α marker :=
  ⟨s, .ready, calls, []⟩

/-- The session after its last call. -/
def finished (s : BoundedStack α marker) (answers : List (Answer α)) : Session α marker :=
  ⟨s, .ready, [], answers⟩

/-- Go on to a stage. -/
def goTo (m : Session α marker) (stage : Stage α) : Session α marker := { m with stage := stage }

/-- End the call with an answer. -/
def answer (m : Session α marker) (a : Answer α) : Session α marker :=
  { m with stage := .ready, answers := m.answers ++ [a] }

/-- Write the top. -/
def setTop (m : Session α marker) (top : Nat) : Session α marker :=
  { m with stack := { m.stack with top := top } }

/-- Write a slot. -/
def setSlot (m : Session α marker) (i : Nat) (value : α) : Session α marker :=
  { m with stack := { m.stack with slots := m.stack.setSlot i value } }

/-- Begin a call. -/
def begin (m : Session α marker) : Call α → Session α marker
  | .push value =>
    if value = marker then m.answer (.verdict false) else m.goTo (.claim value m.stack.top)
  | .pop => m.goTo (.giveUp none m.stack.top)
  | .size => m.answer (.number m.stack.top)
  | .drain => m.goTo (.giveUp (some []) m.stack.top)

/-- End a pop. If it is part of a drain, the next one begins as long as there are words. -/
def popped (m : Session α marker) : Option (List α) → Option α → Session α marker
  | none, value => m.answer (.word value)
  | some drained, none => m.answer (.words drained.reverse)
  | some drained, some value => m.goTo (.giveUp (some (value :: drained)) m.stack.top)

/-- One step, in which an exchange may be lost. -/
def step (m : Session α marker) (lost : Bool) : Session α marker :=
  match m.stage with
  | .ready =>
    match m.calls with
    | [] => m
    | c :: calls => { m with calls := calls }.begin c
  | .claim value noted =>
    if noted < m.stack.capacity then
      if m.stack.top = noted ∧ lost = false then (m.setTop (noted + 1)).goTo (.fill value noted)
      else m.goTo (.claim value m.stack.top)
    else m.answer (.verdict false)
  | .fill value slot =>
    if m.stack.slot slot = marker ∧ lost = false then
      (m.setSlot slot value).answer (.verdict true)
    else m
  | .giveUp drained noted =>
    if noted = 0 then m.popped drained none
    else if m.stack.top = noted ∧ lost = false then
      if noted - 1 < m.stack.capacity then
        (m.setTop (noted - 1)).goTo (.take drained (noted - 1))
      else
        (m.setTop (noted - 1)).goTo (.stopped (.indexOutside m.stack.capacity (noted - 1)))
    else m.goTo (.giveUp drained m.stack.top)
  | .take drained slot =>
    -- A swap is never lost, but it may bring out the marker, and then leaves the slot as it is.
    if m.stack.slot slot = marker then m
    else (m.setSlot slot marker).popped drained (some (m.stack.slot slot))
  | .stopped _ => m

/-- So many steps, where `lost` says of each if an exchange is lost in it. -/
def steps (m : Session α marker) (lost : Nat → Bool) : Nat → Session α marker
  | 0 => m
  | n + 1 => (m.step (lost 0)).steps (fun k => lost (k + 1)) n

end Session

end ArchetypeStore.BoundedStack

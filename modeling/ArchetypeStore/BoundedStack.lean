import ArchetypeStore.Allocation

/-! # Bounded stack

  A stack of words with a fixed number of slots. One word, the `marker`, stands for a slot
  that holds nothing and is never accepted. A push first claims the slot above the top and
  then hands its word over, which needs the marker to be there; a pop first gives up the
  top slot and then takes its word, which needs a word to be there. A handover that finds
  the slot in the wrong state would wait for ever.
-/

namespace ArchetypeStore

/-- A stack of words of type `α`, with `marker` in the slots that hold nothing. -/
structure BoundedStack (α : Type) (marker : α) where
  /-- The number of slots. -/
  capacity : Nat
  /-- The slots that were written at least once; the others hold the marker. -/
  slots : Array α
  /-- The number of slots in use; the next push goes here. -/
  top : Nat
  deriving DecidableEq

namespace BoundedStack

variable {α : Type} {marker : α}

/-- The stack of `capacity` slots without asking for memory. -/
def ofCapacity (capacity : Nat) : BoundedStack α marker := ⟨capacity, #[], 0⟩

/-- An empty stack of `capacity` slots of the given width. -/
def allocate (m : Memory) (purpose : Purpose) (width : WordWidth) (capacity : Nat) :
    Except StoreError (BoundedStack α marker) := do
  let _ ← Buffer.reserve m purpose width capacity
  return ofCapacity capacity

/-- An empty stack on its own, where memory is ample. -/
def withCapacity (width : WordWidth) (capacity : Nat) :
    Except StoreError (BoundedStack α marker) := allocate .ample .other width capacity

/-- What slot `i` holds. -/
def slot (s : BoundedStack α marker) (i : Nat) : α := s.slots[i]?.getD marker

/-- Write slot `i`. -/
def setSlot (s : BoundedStack α marker) (i : Nat) (value : α) : Array α :=
  if i < s.slots.size then s.slots.setIfInBounds i value
  else (s.slots ++ Array.replicate (i - s.slots.size) marker).push value

/-- The number of words on the stack. -/
def size (s : BoundedStack α marker) : Nat := s.top

/-- Is nothing on the stack? -/
def isEmpty (s : BoundedStack α marker) : Bool := s.top == 0

variable [DecidableEq α]

/-- Would the next push wait for its slot to be given up? -/
def pushWaits (s : BoundedStack α marker) : Bool :=
  s.top < s.capacity && s.slot s.top != marker

/-- Would the next pop wait for its slot to be filled? -/
def popWaits (s : BoundedStack α marker) : Bool :=
  s.top != 0 && s.slot (s.top - 1) == marker

/-- Push a word. The answer is false, and nothing changes, for the marker and for a full
stack. -/
def push (s : BoundedStack α marker) (value : α) : Bool × BoundedStack α marker :=
  if value = marker then (false, s)
  else if s.top < s.capacity then
    (true, { s with slots := s.setSlot s.top value, top := s.top + 1 })
  else (false, s)

/-- Pop the word pushed last. -/
def pop (s : BoundedStack α marker) : Option α × BoundedStack α marker :=
  if s.top = 0 then (none, s)
  else
    (some (s.slot (s.top - 1)),
      { s with slots := s.setSlot (s.top - 1) marker, top := s.top - 1 })

/-- Pop `n` words, the one pushed last first. -/
def popMany (s : BoundedStack α marker) : Nat → List α × BoundedStack α marker
  | 0 => ([], s)
  | n + 1 =>
    match s.pop with
    | (none, s) => ([], s)
    | (some value, s) =>
      match s.popMany n with
      | (values, s) => (value :: values, s)

/-- Pop everything, the word pushed last first. -/
def drain (s : BoundedStack α marker) : List α × BoundedStack α marker := s.popMany s.size

/-- Push words in list order, ignoring the answers. -/
def pushAll (s : BoundedStack α marker) (values : List α) : BoundedStack α marker :=
  values.foldl (fun s value => (s.push value).2) s

end BoundedStack

end ArchetypeStore

import ArchetypeStore.Proofs.World.Runs

/-! # No operation looks twice

  An operation on an entity waits while the entity is in transit, and looks again when its body
  answers that the entity was not found. Neither has a bound of its own. Both end because of
  what holds between two operations: an id word with the reserved flag has the detached flag
  as well, and an entity that is found has its seat in the row where it is looked for, so its
  body never answers that it was not found.
-/

namespace ArchetypeStore.World

variable {T V α : Type}

/-! ### The bodies -/

/-- What is done to the row of an entity that is destroyed. -/
def destroyBody (e : Entity) : Body T V Unit := fun w a id =>
  match w.store.evict a.partition id fun v =>
    if holds e v && w.isAtRest e v then .ok () else .error .entityNotFound with
  | (.error error, store) => (.error error, w.withStore store)
  | (.ok evicted, store) =>
    (.ok (), ((w.withStore store).flag e SlotId.detach).drop evicted.values)

variable [DecidableEq T] [ComponentType T]

/-- How a component is read. -/
def readBody (e : Entity) (t : T) : Body T V V := fun w a id =>
  match w.slotIn a t with
  | .error e => (.error e, w)
  | .ok slot => (w.valueAt e a id slot, w)

/-- How a component is changed in place. -/
def updateBody (e : Entity) (t : T) (f : V → V) : Body T V V := fun w a id =>
  match w.slotIn a t with
  | .error e => (.error e, w)
  | .ok slot => w.changeAt e a id slot f

/-- How a component is given to an entity. -/
def addBody (e : Entity) (t : T) (value : V) : Body T V Unit := fun w a id =>
  match a.slot? w.registry t with
  | none => w.gain e a id t value
  | some slot =>
    match w.changeAt e a id slot fun _ => value with
    | (.error error, w) => (.error error, w)
    | (.ok old, w) => (.ok (), w.drop [old])

/-- How a component is taken off an entity. -/
def removeBody (e : Entity) (t : T) : Body T V V := fun w a id =>
  match w.slotIn a t with
  | .error error => (.error error, w)
  | .ok _ => w.lose e a id t

section access

/-! Each operation runs its body on the entity. A failure is an answer like any other, but
only `add` and `remove` tell which one. -/

variable (w : World T V) (e : Entity) (t : T)

omit [DecidableEq T] [ComponentType T] in
theorem destroy_access :
    w.destroy e =
      ((w.access e (destroyBody e)).1.isOk, (w.access e (destroyBody e)).2) := by
  unfold destroy
  split
  all_goals
    rename_i haccess
    have hrun : w.access e (destroyBody e) = _ := haccess
    rw [hrun]
    rfl

theorem read?_access : w.read? e t = (w.access e (readBody e t)).1.toOption := by
  unfold read?
  split
  all_goals
    rename_i haccess
    have hrun : (w.access e (readBody e t)).1 = _ := haccess
    rw [hrun]
    rfl

theorem update_access (f : V → V) :
    w.update e t f =
      ((w.access e (updateBody e t f)).1.toOption, (w.access e (updateBody e t f)).2) := by
  unfold update
  split
  all_goals
    rename_i haccess
    have hrun : w.access e (updateBody e t f) = _ := haccess
    rw [hrun]
    rfl

/-- A value that is refused is dropped. -/
theorem add_access (value : V) :
    w.add e t value =
      ((w.access e (addBody e t value)).1,
        if (w.access e (addBody e t value)).1.isOk then (w.access e (addBody e t value)).2
        else (w.access e (addBody e t value)).2.drop [value]) := by
  unfold add
  split
  all_goals
    rename_i haccess
    have hrun : w.access e (addBody e t value) = _ := haccess
    rw [hrun]
    rfl

theorem remove_access : w.remove e t = w.access e (removeBody e t) := rfl

end access

/-! ### The end of an operation -/

/-- An operation with this body looks up the entity once, and its body runs at most once. The
result of the operation is about the answer of that run. -/
structure EndsAtOnce (w : World T V) (e : Entity) (body : Body T V α)
    (result : Except StoreError α × World T V → Prop) : Prop where
  /-- There is nothing to wait for. -/
  at_rest : w.locate e ≠ .inTransit
  /-- Where the entity is found, the body does not ask for another look. -/
  answers : ∀ a id, w.locate e = .found a id → (body w a id).1 ≠ .error .entityNotFound
  /-- However many looks are allowed, the run and its answer are the same. -/
  once : ∃ runs answer, runs ≤ 1 ∧
    (∀ rounds, w.tryAccess e body (rounds + 1) = some (runs, answer)) ∧ result answer

/-- No operation on the entity looks twice. -/
structure OperationsEnd (w : World T V) (e : Entity) : Prop where
  destroy : w.EndsAtOnce e (destroyBody e) fun answer =>
    w.destroy e = (answer.1.isOk, answer.2)
  read : ∀ t, w.EndsAtOnce e (readBody e t) fun answer => w.read? e t = answer.1.toOption
  update : ∀ t f, w.EndsAtOnce e (updateBody e t f) fun answer =>
    w.update e t f = (answer.1.toOption, answer.2)
  add : ∀ t value, w.EndsAtOnce e (addBody e t value) fun answer =>
    w.add e t value = (answer.1, if answer.1.isOk then answer.2 else answer.2.drop [value])
  remove : ∀ t, w.EndsAtOnce e (removeBody e t) fun answer => w.remove e t = answer

variable {w : World T V} {e : Entity}

omit [DecidableEq T] in
/-- It is enough that the body answers on the seat of a live entity. -/
theorem EndsAtOnce.of_seat (h : w.Sound) {body : Body T V α}
    {result : Except StoreError α × World T V → Prop} (hresult : result (w.access e body))
    (hbody : ∀ a chunk row values, w.Seat e.item a chunk row values →
      (body w a (w.idOf e)).1 ≠ .error .entityNotFound) : w.EndsAtOnce e body result := by
  rcases owned_or_not h e with ⟨he, a, values, chunk, row, hseat⟩ | hnot
  · have hfound := locate_of_seat h he hseat
    have hanswer := hbody a chunk row values hseat
    rw [access_of_found hfound hanswer] at hresult
    refine ⟨?_, ?_, 1, _, Nat.le_refl 1, tryAccess_of_found hfound hanswer, hresult⟩
    · intro htransit
      rw [hfound] at htransit
      cases htransit
    · intro a' id' hother
      rw [hfound] at hother
      cases hother
      exact hanswer
  · have hgone := locate_of_not_owns h hnot
    rw [access_of_gone hgone] at hresult
    refine ⟨?_, ?_, 0, _, Nat.zero_le 1, tryAccess_of_gone hgone body, hresult⟩
    · intro htransit
      rw [hgone] at htransit
      cases htransit
    · intro a' id' hother
      rw [hgone] at hother
      cases hother

section answers

/-! A body that is run on the seat of its entity never answers that it was not found. -/

variable (h : w.Sound) {a : Archetype T} {chunk row : Nat} {values : List V}
  (hseat : w.Seat e.item a chunk row values)

include h hseat

omit [DecidableEq T] in
theorem destroyBody_answers :
    (destroyBody e w a (w.idOf e)).1 ≠ .error .entityNotFound := by
  obtain ⟨hholds, hrest⟩ := accepts_of_seat h hseat
  rcases w.store.findsRoom_or_lacksRoom a.partition with hfinds | ⟨error, hlacks⟩
  · obtain ⟨evicted, store, hevict, -⟩ := evict_of_seat h hseat hfinds
      (fun v => if holds e v && w.isAtRest e v then .ok () else .error .entityNotFound) ()
      (by simp [hholds, hrest])
    simp only [destroyBody, hevict]
    intro heq
    cases heq
  -- Want of room for the slot is another answer.
  · obtain ⟨bytes, rfl⟩ := hlacks.failed h.store
    simp only [destroyBody, evict_of_crowded h hseat hlacks]
    intro heq
    cases heq

/-- A component is found in its slot, or the archetype has no slot for it. -/
theorem readBody_answers (t : T) : (readBody e t w a (w.idOf e)).1 ≠ .error .entityNotFound := by
  intro heq
  by_cases ht : t ∈ a.types
  · obtain ⟨slot, value, hslot, -, hvalue, -⟩ := value_of_mem h ⟨chunk, row, hseat⟩ ht
    simp only [readBody, slotIn, hslot, valueAt, valuesAt_of_seat h hseat, hvalue] at heq
    cases heq
  · simp only [readBody, slotIn, slot?_of_absent h ⟨chunk, row, hseat⟩ ht] at heq
    cases heq

theorem updateBody_answers (t : T) (f : V → V) :
    (updateBody e t f w a (w.idOf e)).1 ≠ .error .entityNotFound := by
  intro heq
  by_cases ht : t ∈ a.types
  · obtain ⟨slot, value, hslot, -, hvalue, -⟩ := value_of_mem h ⟨chunk, row, hseat⟩ ht
    simp only [updateBody, slotIn, hslot, changeAt_of_seat h hseat hvalue] at heq
    cases heq
  · simp only [updateBody, slotIn, slot?_of_absent h ⟨chunk, row, hseat⟩ ht] at heq
    cases heq

/-- A move that is refused is refused for want of memory or of numbers. -/
theorem addBody_answers (t : T) (value : V) :
    (addBody e t value w a (w.idOf e)).1 ≠ .error .entityNotFound := by
  intro heq
  have hhas : w.Has e.item a values := ⟨chunk, row, hseat⟩
  by_cases ht : t ∈ a.types
  · obtain ⟨slot, old, hslot, -, hold, -⟩ := value_of_mem h hhas ht
    simp only [addBody, hslot, changeAt_of_seat h hseat hold] at heq
    cases heq
  · obtain ⟨result, w', hgain, hmigrated⟩ := gain_cases h hhas ht value
    simp only [addBody, slot?_of_absent h hhas ht, hgain] at heq
    exact hmigrated.ne_entityNotFound heq

theorem removeBody_answers (t : T) :
    (removeBody e t w a (w.idOf e)).1 ≠ .error .entityNotFound := by
  intro heq
  have hhas : w.Has e.item a values := ⟨chunk, row, hseat⟩
  by_cases ht : t ∈ a.types
  · obtain ⟨slot, value, hslot, -, -, hlookup⟩ := value_of_mem h hhas ht
    obtain ⟨result, w', hlose, hmigrated⟩ := lose_cases h hhas hlookup
    simp only [removeBody, slotIn, hslot, hlose] at heq
    cases result with
    | ok => cases heq
    | error error =>
      exact hmigrated.ne_entityNotFound (congrArg Except.error (Except.error.inj heq))
  · simp only [removeBody, slotIn, slot?_of_absent h hhas ht] at heq
    cases heq

end answers

/-- Between two operations, every operation ends at once on any handle. -/
theorem operations_end (h : w.Sound) (e : Entity) : w.OperationsEnd e where
  destroy := .of_seat h (destroy_access w e) fun _ _ _ _ hseat => destroyBody_answers h hseat
  read t := .of_seat h (read?_access w e t) fun _ _ _ _ hseat => readBody_answers h hseat t
  update t f :=
    .of_seat h (update_access w e t f) fun _ _ _ _ hseat => updateBody_answers h hseat t f
  add t value :=
    .of_seat h (add_access w e t value) fun _ _ _ _ hseat => addBody_answers h hseat t value
  remove t := .of_seat h (remove_access w e t) fun _ _ _ _ hseat => removeBody_answers h hseat t

end ArchetypeStore.World

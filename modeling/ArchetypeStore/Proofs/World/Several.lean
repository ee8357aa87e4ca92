import ArchetypeStore.Proofs.Catalog.Ending
import ArchetypeStore.Proofs.World.Atomic
import ArchetypeStore.Proofs.World.Retry
import ArchetypeStore.World.Universe

/-! # Several worlds

  Worlds begin and end while the handles of all of them go around. An operation is called on
  a world that has not ended, with any handle. Each world keeps its number, and its invariant
  as long as it lasts, whatever is done to the others. When it ends its archetypes go, and the
  id words of its entities stay as they are.
-/

namespace ArchetypeStore

variable {T V : Type}

namespace World

/-! ### The number of a world -/

section number

variable {α : Type} {w w' : World T V}

theorem access_number {e : Entity} {body : Body T V α} {answer : Except StoreError α}
    (hbody : ∀ (w : World T V) a id, (body w a id).2.number = w.number)
    (h : w.access e body = (answer, w')) : w'.number = w.number :=
  access_relates (R := fun w w' => w'.number = w.number) (fun _ => rfl)
    (fun hfirst hsecond => hsecond.trans hfirst) hbody h

theorem changeAt_number (w : World T V) (e : Entity) (a : Archetype T) (id : SlotId)
    (slot : Nat) (f : V → V) : (w.changeAt e a id slot f).2.number = w.number := by
  unfold changeAt
  split
  · rfl
  · split <;> rfl

theorem destroy_number (w : World T V) (e : Entity) : (w.destroy e).2.number = w.number := by
  have hbody : ∀ (w : World T V) a id, (destroyBody e w a id).2.number = w.number := by
    intro w a id
    unfold destroyBody
    split <;> rfl
  rw [destroy_access]
  exact access_number hbody rfl

theorem moveOut_number [ComponentType T] (w : World T V) (e : Entity) (a : Archetype T)
    (id : SlotId) : (w.moveOut e a id).2.number = w.number := by
  unfold moveOut
  split <;> rfl

variable [ComponentType T] [DecidableEq T]

theorem update_number (w : World T V) (e : Entity) (t : T) (f : V → V) :
    (w.update e t f).2.number = w.number := by
  have hbody : ∀ (w : World T V) a id, (updateBody e t f w a id).2.number = w.number := by
    intro w a id
    unfold updateBody
    split
    · rfl
    · exact changeAt_number w e a id _ f
  rw [update_access]
  exact access_number hbody rfl

theorem moveIn_number (w : World T V) (a : Archetype T) (item : Nat)
    (components : Bundle T V) : (w.moveIn a item components).2.number = w.number := by
  unfold moveIn
  split <;> rfl

theorem spawnIn_number (w : World T V) (a : Archetype T) (bundle : Bundle T V) :
    (w.spawnIn a bundle).2.number = w.number := by
  have hmove := moveIn_number (w.newEntity a.key).2 a (w.newEntity a.key).1.item bundle
  unfold spawnIn
  simp only
  split <;> exact hmove

theorem spawnStated_number (w : World T V) (stated : List T) (bundle : Bundle T V) :
    (w.spawnStated stated bundle).2.number = w.number := by
  unfold spawnStated archetypeOfBundle
  cases (w.bundles.lookup stated).bind w.catalog.archetype? with
  | some a => exact spawnIn_number w a bundle
  | none =>
    cases w.catalog.ensure stated with
    | mk answer catalog =>
      cases answer with
      | error e => rfl
      | ok a => exact spawnIn_number _ a bundle

theorem finishMove_number (w : World T V) (e : Entity) (target : Archetype T)
    (carried gained : Bundle T V) :
    (w.finishMove e target carried gained).2.number = w.number := by
  have hmove := moveIn_number w target e.item (carried ++ gained)
  unfold finishMove
  split
  all_goals
    rename_i hmoved
    rw [hmoved] at hmove
    exact hmove

theorem gain_number (w : World T V) (e : Entity) (a : Archetype T) (id : SlotId) (t : T)
    (value : V) : (w.gain e a id t value).2.number = w.number := by
  unfold gain
  cases w.catalog.ensure (a.types ++ [t]) with
  | mk answer catalog =>
    cases answer with
    | error error => rfl
    | ok target =>
      have hout := moveOut_number { w with catalog } e a id
      simp only
      split
      all_goals
        rename_i hmoved
        rw [hmoved] at hout
      · exact hout
      · exact (finishMove_number ..).trans hout

theorem lose_number (w : World T V) (e : Entity) (a : Archetype T) (id : SlotId) (t : T) :
    (w.lose e a id t).2.number = w.number := by
  unfold lose
  cases w.catalog.ensure (a.types.filter (· ≠ t)) with
  | mk answer catalog =>
    cases answer with
    | error error => rfl
    | ok target =>
      have hout := moveOut_number { w with catalog } e a id
      simp only
      split
      all_goals
        rename_i hmoved
        rw [hmoved] at hout
      · exact hout
      · rename_i carried w₁
        split
        · exact hout
        · have hfinish := finishMove_number w₁ e target (carried.eraseP (·.1 == t)) []
          split
          all_goals
            rename_i hfinished
            rw [hfinished] at hfinish
            exact hfinish.trans hout

theorem add_number (w : World T V) (e : Entity) (t : T) (value : V) :
    (w.add e t value).2.number = w.number := by
  have hbody : ∀ (w : World T V) a id, (addBody e t value w a id).2.number = w.number := by
    intro w a id
    unfold addBody
    split
    · exact gain_number w e a id t value
    · rename_i slot _
      have hchange := changeAt_number w e a id slot fun _ => value
      split
      all_goals
        rename_i hchanged
        rw [hchanged] at hchange
        exact hchange
  have haccess : (w.access e (addBody e t value)).2.number = w.number :=
    access_number hbody rfl
  rw [add_access]
  split
  · exact haccess
  · exact haccess

theorem remove_number (w : World T V) (e : Entity) (t : T) :
    (w.remove e t).2.number = w.number := by
  have hbody : ∀ (w : World T V) a id, (removeBody e t w a id).2.number = w.number := by
    intro w a id
    unfold removeBody
    split
    · rfl
    · exact lose_number w e a id t
  rw [remove_access]
  exact access_number hbody rfl

theorem next_number (w : World T V) (event : Event T V) :
    (w.next event).number = w.number := by
  cases event with
  | register t => rfl
  | node ts => rfl
  | archetype ts => rfl
  | spawnIn key bundle =>
    unfold next
    simp only
    split
    · rfl
    · exact spawnIn_number w _ bundle
  | call c =>
    cases c with
    | create bundle => simpa [next, spawn] using spawnStated_number w bundle.types bundle
    | createAs stated bundle => simpa [next] using spawnStated_number w stated bundle
    | destroy e => exact destroy_number w e
    | add e t value => simpa [next] using add_number w e t value
    | remove e t => simpa [next] using remove_number w e t
    | update e t f => exact update_number w e t f
    | read e t => rfl
    | has e t => rfl
    | count => rfl
    | memory m => rfl

end number

end World

/-! ### Worlds that begin and end -/

/-- The worlds that were made, and the numbers of those that have ended. -/
structure Worlds (T V : Type) where
  /-- All worlds, ended ones included. -/
  made : Universe T V
  /-- The numbers of the worlds that have ended, the last one first. -/
  ended : List Nat

/-- What may happen to worlds. Nothing happens to a world that has ended. -/
inductive Happening (T V : Type) where
  | begin (settings : Settings)
  | event (number : Nat) (event : Event T V)
  | close (number : Nat)

namespace Worlds

/-- No world was made yet. -/
def empty : Worlds T V := ⟨.empty, []⟩

/-- The world with this number, if it has not ended. -/
def running? (ws : Worlds T V) (number : Nat) : Option (World T V) :=
  if number ∈ ws.ended then none else ws.made.worlds[number]?

variable [DecidableEq T] [ComponentType T]

/-- The worlds after a happening. -/
def next (ws : Worlds T V) : Happening T V → Worlds T V
  | .begin settings => { ws with made := (ws.made.begin settings).2 }
  | .event number event =>
    match ws.running? number with
    | none => ws
    | some w => { ws with made := ws.made.set (w.next event) }
  | .close number =>
    match ws.running? number with
    | none => ws
    | some _ => ⟨ws.made.close number, number :: ws.ended⟩

/-- The worlds after several happenings. -/
def after (ws : Worlds T V) (happenings : List (Happening T V)) : Worlds T V :=
  happenings.foldl next ws

/-- How a world stands between two happenings. -/
structure Standing (ended : Prop) (number : Nat) (w : World T V) : Prop where
  numbered : w.number = number
  sound : ¬ ended → w.Sound
  /-- A world that has ended has no archetype. -/
  bare : ended → ∀ key, w.catalog.archetype? key = none
  /-- No id word has the reserved flag alone, whether the world has ended or not. -/
  flags : ∀ item, (w.store.idOf item).isReserved = true → (w.store.idOf item).isDetached = true

/-- Every world that was made stands as it should. -/
def InOrder (ws : Worlds T V) : Prop :=
  ∀ (n : Nat) (w : World T V), ws.made.worlds[n]? = some w → Standing (n ∈ ws.ended) n w

section inOrder

omit [DecidableEq T]

variable {ws : Worlds T V} {number : Nat} {w : World T V}

omit [ComponentType T] in
theorem running?_eq_some_iff :
    ws.running? number = some w ↔ number ∉ ws.ended ∧ ws.made.worlds[number]? = some w := by
  unfold running?
  by_cases hended : number ∈ ws.ended
  · simp [hended]
  · simp [hended]

theorem InOrder.number_of_running (h : ws.InOrder) (hrunning : ws.running? number = some w) :
    w.number = number :=
  (h number w (running?_eq_some_iff.mp hrunning).2).numbered

theorem InOrder.sound_of_running (h : ws.InOrder) (hrunning : ws.running? number = some w) :
    w.Sound := by
  obtain ⟨hopen, hw⟩ := running?_eq_some_iff.mp hrunning
  exact (h number w hw).sound hopen

/-- A world with its invariant stands as it should, unless it has ended. -/
theorem Standing.of_sound {ended : Prop} (hnumber : w.number = number) (hsound : w.Sound)
    (hbare : ended → ∀ key, w.catalog.archetype? key = none) : Standing ended number w :=
  ⟨hnumber, fun _ => hsound, hbare, fun _ => World.detached_of_reserved hsound⟩

theorem empty_inOrder : (empty : Worlds T V).InOrder := by
  intro n w hw
  have hnone : (empty : Worlds T V).made.worlds[n]? = none := rfl
  rw [hnone] at hw
  cases hw

/-- A world that begins has the next number and no archetype. -/
theorem begin_inOrder (h : ws.InOrder) (settings : Settings) :
    InOrder { ws with made := (ws.made.begin settings).2 } := by
  unfold Universe.begin
  cases hcreate : (World.create ws.made.worlds.size settings : Except StoreError (World T V)) with
  | error e => exact h
  | ok w₀ =>
    obtain ⟨hsound, hnumber, -⟩ := World.create_sound hcreate
    intro n w hw
    have hpush : (ws.made.worlds.push w₀)[n]? = some w := hw
    rw [Array.getElem?_push] at hpush
    split at hpush
    · rename_i heq
      cases hpush
      subst heq
      exact .of_sound hnumber hsound fun _ => World.create_archetype? hcreate
    · exact h n w hpush

/-- A world that has not ended is replaced by another one with the same number. -/
theorem set_inOrder (h : ws.InOrder) {w' : World T V} (hrunning : ws.running? number = some w)
    (hnumber : w'.number = w.number) (hsound : w'.Sound) :
    InOrder { ws with made := ws.made.set w' } := by
  have hat : w'.number = number := hnumber.trans (h.number_of_running hrunning)
  intro n v hv
  have hset : (ws.made.worlds.setIfInBounds w'.number w')[n]? = some v := hv
  rw [hat, Array.getElem?_setIfInBounds] at hset
  split at hset
  · rename_i heq
    split at hset
    · cases hset
      subst heq
      have hopen := (running?_eq_some_iff.mp hrunning).1
      exact .of_sound hat hsound fun hended => absurd hended hopen
    · cases hset
  · exact h n v hset

/-- A world that ends loses its archetypes and keeps its id words. -/
theorem close_inOrder (h : ws.InOrder) (hrunning : ws.running? number = some w) :
    InOrder ⟨ws.made.close number, number :: ws.ended⟩ := by
  have hw := (running?_eq_some_iff.mp hrunning).2
  obtain ⟨hbare, hids⟩ := Catalog.close_bare (h.sound_of_running hrunning).catalog
  intro n v hv
  have hmodify : (ws.made.worlds.modify number World.close)[n]? = some v := hv
  rw [Array.getElem?_modify] at hmodify
  split at hmodify
  · rename_i heq
    subst heq
    rw [hw] at hmodify
    cases hmodify
    have hsame : ∀ item, w.close.store.idOf item = w.store.idOf item := by
      intro item
      have hwords : w.close.store.ids = w.store.ids := hids
      rw [RowStore.idOf, RowStore.idOf, hwords]
    refine ⟨(h number w hw).numbered, fun hopen => ?_, fun _ => hbare, fun item => ?_⟩
    · exact absurd (List.mem_cons_self ..) hopen
    · rw [hsame]
      exact (h number w hw).flags item
  · rename_i hne
    have hended : n ∈ number :: ws.ended ↔ n ∈ ws.ended := by simp [Ne.symm hne]
    show Standing (n ∈ number :: ws.ended) n v
    rw [hended]
    exact h n v hmodify

end inOrder

variable {ws : Worlds T V}

theorem next_inOrder (h : ws.InOrder) (happening : Happening T V) :
    (ws.next happening).InOrder := by
  cases happening with
  | begin settings => exact begin_inOrder h settings
  | event number event =>
    cases hrunning : ws.running? number with
    | none => simpa only [next, hrunning] using h
    | some w =>
      simp only [next, hrunning]
      exact set_inOrder h hrunning (w.next_number event)
        (World.next_sound (h.sound_of_running hrunning) event)
  | close number =>
    cases hrunning : ws.running? number with
    | none => simpa only [next, hrunning] using h
    | some w =>
      simp only [next, hrunning]
      exact close_inOrder h hrunning

theorem after_inOrder (h : ws.InOrder) (happenings : List (Happening T V)) :
    (ws.after happenings).InOrder := by
  induction happenings generalizing ws with
  | nil => exact h
  | cons happening rest ih => exact ih (next_inOrder h happening)

end Worlds

end ArchetypeStore

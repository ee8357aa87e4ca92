import ArchetypeStore.Proofs.World.Several

/-! # Handles of other worlds

  An operation reads the id word and the home of its handle before it asks whether the handle
  is of the world it was called on. Whatever the handle, it looks once: even where the id
  word is of another world, or of one that has ended, there is nothing to wait for.

  The test for a component never asks which world it was called on. For an entity of this
  world it answers what reading would find. For an entity of another world that has not
  ended it answers what that world would find, where reading finds nothing. Once that world
  has ended it finds nothing either: no selection outlives its world here, so no archetype of
  it is left.
-/

namespace ArchetypeStore

variable {T V : Type}

namespace Universe

/-- Look up an entity from the world with this number. The flags and the home are those of
the entity, wherever it is from, and its world is compared last. -/
def look (u : Universe T V) (number : Nat) (e : Entity) : World.Place T :=
  match u.worldOf? e with
  | none => .gone
  | some w =>
    if (w.idOf e).isDetached then .gone
    else if (w.idOf e).isReserved then .inTransit
    else
      match w.home? e with
      | none => .gone
      | some a => if e.world ≠ number then .gone else .found a (w.idOf e)

end Universe

namespace World

variable [ComponentType T] [DecidableEq T] {w : World T V}

/-- To change a component and to read it find the same value. -/
theorem update_answer (h : w.Sound) (e : Entity) (t : T) (f : V → V) :
    (w.update e t f).1 = w.read? e t := by
  rcases owned_or_not h e with ⟨he, a, values, hhas⟩ | hnot
  · rw [read?_of_has h he hhas]
    by_cases ht : t ∈ a.types
    · obtain ⟨slot, value, w', hupdate, hslot, hvalue, -⟩ := update_of_mem h he hhas ht f
      rw [hupdate, Bundle.lookup_zip (types_nodup_of_has h hhas) values hslot, hvalue]
    · rw [update_of_absent h he hhas ht, lookup_of_absent h hhas ht]
  · rw [update_of_not_owns h hnot, read?_of_not_owns h hnot]

/-- A world reads the components of its own entities, and those that the test finds. -/
theorem read?_isSome_iff (h : w.Sound) (e : Entity) (t : T) :
    (w.read? e t).isSome = true ↔ e.world = w.number ∧ w.has e t = true := by
  rcases owned_or_not h e with ⟨he, a, values, hhas⟩ | hnot
  · rw [read?_of_has h he hhas, has_of_has h hhas, decide_eq_true_iff]
    by_cases ht : t ∈ a.types
    · obtain ⟨slot, value, -, -, -, hlookup⟩ := value_of_mem h hhas ht
      simp [hlookup, he, ht]
    · simp [lookup_of_absent h hhas ht, ht]
  · rw [read?_of_not_owns h hnot]
    constructor
    · intro hsome
      cases hsome
    · rintro ⟨he, hhas⟩
      rw [has_of_not_lives h fun hlives => hnot ⟨he, hlives⟩] at hhas
      cases hhas

end World

namespace Worlds

variable [ComponentType T] {ws : Worlds T V} {number : Nat} {w : World T V}

omit [ComponentType T] in
theorem worldOf?_of_running (hrunning : ws.running? number = some w) {e : Entity}
    (he : e.world = number) : ws.made.worldOf? e = some w := by
  rw [Universe.worldOf?, he]
  exact (running?_eq_some_iff.mp hrunning).2

/-! ### Every operation looks once -/

/-- It makes no difference that the world of the handle is compared last. -/
theorem look_eq_locate (h : ws.InOrder) (hrunning : ws.running? number = some w) (e : Entity) :
    ws.made.look number e = w.locate e := by
  have hnumber := h.number_of_running hrunning
  by_cases he : e.world = number
  · have hown : ¬ e.world ≠ w.number := not_not_intro (he.trans hnumber.symm)
    simp only [Universe.look, worldOf?_of_running hrunning he, World.locate, if_neg hown]
    cases w.home? e with
    | none => rfl
    | some a => simp only [he, ne_eq, not_true_eq_false, if_false]
  · have hgone : w.locate e = .gone := by simp [World.locate, he, hnumber]
    rw [hgone, Universe.look]
    cases hown : ws.made.worldOf? e with
    | none => rfl
    | some own =>
      by_cases hdetached : (own.idOf e).isDetached = true
      · simp [hdetached]
      · -- An id word without the detached flag has no reserved flag either.
        have hreserved : ¬ (own.idOf e).isReserved = true := fun hreserved =>
          hdetached ((h e.world own hown).flags e.item hreserved)
        simp only [hdetached, hreserved, he, ne_eq, not_false_eq_true, if_true, if_false,
          Bool.false_eq_true]
        split <;> rfl

variable [DecidableEq T]

/-- No operation waits for an entity or looks for it twice. -/
structure LooksOnce (ws : Worlds T V) : Prop where
  /-- No entity is left in transit, in a world that has ended or in any other. -/
  flags : ∀ (n : Nat) (w : World T V), ws.made.worlds[n]? = some w → ∀ item,
    (w.store.idOf item).isReserved = true → (w.store.idOf item).isDetached = true
  /-- It is found in the same place, whether its world is compared last or first. -/
  look : ∀ (n : Nat) (w : World T V), ws.running? n = some w →
    ∀ e, ws.made.look n e = w.locate e
  ends : ∀ (n : Nat) (w : World T V), ws.running? n = some w → ∀ e, w.OperationsEnd e

/-- Whatever happened to any world, on any handle every operation ends, and runs its body at most
once. -/
theorem looks_once (happenings : List (Happening T V)) :
    (empty.after happenings).LooksOnce := by
  have h := after_inOrder (empty_inOrder (T := T) (V := V)) happenings
  exact {
    flags := fun n w hw => (h n w hw).flags
    look := fun _ _ hrunning e => look_eq_locate h hrunning e
    ends := fun _ _ hrunning e => World.operations_end (h.sound_of_running hrunning) e }

/-- An entity of one world is lost on its way to an archetype without room, the others live.
Another world ends with an entity that is not destroyed. -/
def parting : List (Happening Sample Nat) :=
  [.begin World.crowded, .begin World.crowded] ++ World.packed.map (.event 0) ++
    [.event 0 (.call (.add ⟨0, 4⟩ .velocity 9)), .event 1 (.call (.create [(.position, 1)])),
      .close 1]

theorem looks_once_parting : ∃ w own : World Sample Nat,
    (empty.after parting).running? 0 = some w ∧
      w.read? ⟨0, 0⟩ .position = some 0 ∧ (w.store.idOf 4).isReserved = true ∧
      (empty.after parting).running? 1 = none ∧
      (empty.after parting).made.worldOf? ⟨1, 0⟩ = some own ∧
      (own.store.idOf 0).isDetached = false ∧
      w.OperationsEnd ⟨0, 0⟩ ∧ w.OperationsEnd ⟨0, 4⟩ ∧ w.OperationsEnd ⟨1, 0⟩ := by
  have hkept : ((empty.after parting).running? 0).map (fun w =>
      (w.read? ⟨0, 0⟩ .position, (w.store.idOf 4).isReserved)) = some (some 0, true) := by
    decide +kernel
  have hended : ((empty.after parting).running? 1).isNone = true := by
    decide +kernel
  have hleft : ((empty.after parting).made.worldOf? ⟨1, 0⟩).map
      (fun w => (w.store.idOf 0).isDetached) = some false := by
    decide +kernel
  obtain ⟨w, hrunning, hpair⟩ := Option.map_eq_some_iff.mp hkept
  obtain ⟨hread, hreserved⟩ := Prod.ext_iff.mp hpair
  obtain ⟨own, hown, hdetached⟩ := Option.map_eq_some_iff.mp hleft
  have hends := (looks_once parting).ends 0 w hrunning
  exact ⟨w, own, hrunning, hread, hreserved, Option.isNone_iff_eq_none.mp hended, hown, hdetached,
    hends ⟨0, 0⟩, hends ⟨0, 4⟩, hends ⟨1, 0⟩⟩

/-! ### The tests for a component -/

/-- How the tests for a component go together. -/
structure TestsAgree (ws : Worlds T V) : Prop where
  /-- To change a component and to read it find the same value. -/
  change : ∀ (n : Nat) (w : World T V), ws.running? n = some w →
    ∀ e t f, (w.update e t f).1 = w.read? e t
  /-- A world reads what the test finds, if the entity is its own. -/
  read : ∀ (n : Nat) (w : World T V), ws.running? n = some w →
    ∀ e t, (w.read? e t).isSome = true ↔ e.world = n ∧ ws.made.has e t = true
  /-- The test finds what the world of the entity reads, as long as this has not ended. No
  selection outlives its world, so afterwards it finds nothing. -/
  test : ∀ e t, ws.made.has e t = true ↔
    ∃ w, ws.running? e.world = some w ∧ (w.read? e t).isSome = true

theorem testsAgree_of_inOrder (h : ws.InOrder) : ws.TestsAgree := by
  have hread : ∀ (n : Nat) (w : World T V), ws.running? n = some w →
      ∀ e t, (w.read? e t).isSome = true ↔ e.world = n ∧ ws.made.has e t = true := by
    intro n w hrunning e t
    rw [World.read?_isSome_iff (h.sound_of_running hrunning), h.number_of_running hrunning]
    refine and_congr_right fun he => ?_
    rw [Universe.has, worldOf?_of_running hrunning he, Option.any_some]
  refine ⟨fun _ _ hrunning => World.update_answer (h.sound_of_running hrunning), hread, ?_⟩
  intro e t
  constructor
  · intro hhas
    obtain ⟨own, hown, hown_has⟩ := Option.any_eq_true .. |>.mp hhas
    have hopen : e.world ∉ ws.ended := by
      intro hended
      have hhome : own.home? e = none := by
        rw [World.home?]
        cases own.homes[e.item]? with
        | none => rfl
        | some key => exact (h e.world own hown).bare hended key
      rw [World.has, hhome] at hown_has
      simp at hown_has
    have hrunning := running?_eq_some_iff.mpr ⟨hopen, hown⟩
    exact ⟨own, hrunning, (hread e.world own hrunning e t).mpr ⟨rfl, hhas⟩⟩
  · rintro ⟨w, hrunning, hsome⟩
    exact ((hread e.world w hrunning e t).mp hsome).2

/-- Whatever happened to any world, the tests for a component differ on the entities of other
worlds only. -/
theorem component_tests (happenings : List (Happening T V)) :
    (empty.after happenings).TestsAgree :=
  testsAgree_of_inOrder (after_inOrder empty_inOrder happenings)

/-- Two worlds, and an entity of the first one. -/
def meeting : List (Happening Sample Nat) :=
  [.begin World.crowded, .begin World.crowded, .event 0 (.call (.create [(.position, 1)]))]

theorem component_tests_meeting : ∃ w w' : World Sample Nat,
    (empty.after meeting).running? 0 = some w ∧ (empty.after meeting).running? 1 = some w' ∧
      (empty.after meeting).made.has ⟨0, 0⟩ .position = true ∧
      (w.read? ⟨0, 0⟩ .position).isSome = true ∧
      ¬ (w'.read? ⟨0, 0⟩ .position).isSome = true := by
  have hhas : (empty.after meeting).made.has ⟨0, 0⟩ .position = true := by
    decide +kernel
  have hother : ((empty.after meeting).running? 1).isSome = true := by
    decide +kernel
  obtain ⟨w', hother⟩ := Option.isSome_iff_exists.mp hother
  obtain ⟨w, hrunning, hread⟩ := ((component_tests meeting).test ⟨0, 0⟩ .position).mp hhas
  refine ⟨w, w', hrunning, hother, hhas, hread, fun hsome => ?_⟩
  have hzero := ((component_tests meeting).read 1 w' hother ⟨0, 0⟩ .position).mp hsome
  exact absurd hzero.1 Nat.zero_ne_one

/-- Asked in the second world, the test still finds the component of the entity, which this world
does not read. -/
theorem test_finds_foreign :
    ¬ ∀ (happenings : List (Happening Sample Nat)) (n : Nat) (w : World Sample Nat),
      (empty.after happenings).running? n = some w → ∀ (e : Entity) (t : Sample),
        (empty.after happenings).made.has e t = true ↔ (w.read? e t).isSome = true := by
  intro hclaim
  have hanswer : ((empty.after meeting).running? 1).map (fun w =>
      ((empty.after meeting).made.has ⟨0, 0⟩ .position, w.read? ⟨0, 0⟩ .position)) =
        some (true, none) := by
    decide +kernel
  obtain ⟨w, hrunning, hpair⟩ := Option.map_eq_some_iff.mp hanswer
  obtain ⟨hhas, hread⟩ := Prod.ext_iff.mp hpair
  have hsome := (hclaim meeting 1 w hrunning ⟨0, 0⟩ .position).mp hhas
  rw [show w.read? ⟨0, 0⟩ .position = none from hread] at hsome
  cases hsome

end Worlds

end ArchetypeStore

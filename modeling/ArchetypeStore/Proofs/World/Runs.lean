import ArchetypeStore.Proofs.World.Making

/-! # Every run

  The invariant holds in the world that is created, and every operation keeps it. So it
  holds in all worlds that operations lead to.
-/

namespace ArchetypeStore

variable {T V : Type}

namespace World

variable [ComponentType T] {w w' : World T V} [DecidableEq T]

/-! ### Worlds that are reached -/

/-- The worlds that operations lead to, whatever handles they are given, however they end and
whatever memory there is for each. -/
inductive Reachable (number : Nat) (settings : Settings) : World T V → Prop where
  | create {w : World T V} (made : World.create number settings = .ok w) :
      Reachable number settings w
  /-- A component set is asked for. -/
  | prepare {w : World T V} (ts : List T) (before : Reachable number settings w) :
      Reachable number settings { w with catalog := (w.catalog.ensure ts).2 }
  | spawnStated {w : World T V} (stated : List T) (bundle : Bundle T V)
      (before : Reachable number settings w) :
      Reachable number settings (w.spawnStated stated bundle).2
  | spawnAs {w : World T V} (ts : List T) (bundle : Bundle T V)
      (before : Reachable number settings w) :
      Reachable number settings (w.spawnAs ts bundle).2
  | destroy {w : World T V} (e : Entity) (before : Reachable number settings w) :
      Reachable number settings (w.destroy e).2
  | add {w : World T V} (e : Entity) (t : T) (value : V)
      (before : Reachable number settings w) : Reachable number settings (w.add e t value).2
  | remove {w : World T V} (e : Entity) (t : T) (before : Reachable number settings w) :
      Reachable number settings (w.remove e t).2
  | update {w : World T V} (e : Entity) (t : T) (f : V → V)
      (before : Reachable number settings w) : Reachable number settings (w.update e t f).2
  /-- Memory answers in another way from now on. -/
  | memory {w : World T V} (m : Memory) (before : Reachable number settings w) :
      Reachable number settings (w.withMemory m)

theorem Reachable.spawn {number : Nat} {settings : Settings} (bundle : Bundle T V)
    (before : Reachable number settings w) : Reachable number settings (w.spawn bundle).2 :=
  .spawnStated bundle.types bundle before

omit [DecidableEq T] in
/-- A handle is of an entity that lives here, with some components, or of none. -/
theorem owned_or_not (h : w.Sound) (e : Entity) :
    (e.world = w.number ∧ ∃ a values, w.Has e.item a values) ∨ ¬ w.Owns e := by
  by_cases howns : w.Owns e
  · exact .inl ⟨howns.1, (lives_iff h).mp howns.2⟩
  · exact .inr howns

theorem Migrated.sound {e : Entity} {a : Archetype T} {ts : List T} {before after : Bundle T V}
    {result : Except StoreError Unit} (h : w.Migrated e a ts before after result w') :
    w'.Sound := by
  cases h with
  | moved effect => exact effect.sound
  | stayed _ _ effect => exact effect.sound
  | lost _ _ effect => exact effect.sound

theorem ensure_effect (h : w.Sound) (ts : List T) :
    w.Effect { w with catalog := (w.catalog.ensure ts).2 } [] [] [] := by
  cases hensure : w.catalog.ensure ts with
  | mk answer catalog =>
    cases answer with
    | ok a =>
      obtain ⟨hwf, hstore, hgrows, -⟩ := Catalog.ensure_ok h.catalog h.store hensure
      exact h.grow hwf hstore hgrows
    | error e =>
      obtain ⟨hwf, hstore, hgrows, -⟩ := Catalog.ensure_error h.catalog h.store hensure
      exact h.grow hwf hstore hgrows

theorem spawnStated_sound (h : w.Sound) (stated : List T) (bundle : Bundle T V) :
    (w.spawnStated stated bundle).2.Sound := by
  obtain ⟨answer, w', hspawn, hspawned, -⟩ := spawnStated_spawned h stated bundle
  rw [hspawn]
  exact hspawned.sound

theorem spawnAs_sound (h : w.Sound) (ts : List T) (bundle : Bundle T V) :
    (w.spawnAs ts bundle).2.Sound := by
  obtain ⟨answer, w', hspawn, hspawned⟩ := spawnAs_spawned h ts bundle
  rw [hspawn]
  exact hspawned.sound

omit [DecidableEq T] in
theorem destroy_sound (h : w.Sound) (e : Entity) :
    (w.destroy e).2.Sound := by
  rcases owned_or_not h e with ⟨he, a, values, hhas⟩ | hnot
  · rcases destroy_cases h he hhas with ⟨w', hdestroy, heffect, -⟩ | ⟨error, -, hdestroy⟩
    · rw [hdestroy]
      exact heffect.sound
    · rw [hdestroy]
      exact h
  · rw [destroy_of_not_owns h hnot]
    exact h

theorem add_sound (h : w.Sound) (e : Entity) (t : T) (value : V) :
    (w.add e t value).2.Sound := by
  rcases owned_or_not h e with ⟨he, a, values, hhas⟩ | hnot
  · by_cases ht : t ∈ a.types
    · obtain ⟨_, _, w', hadd, -, -, heffect, -⟩ := add_of_mem h he hhas ht value
      rw [hadd]
      exact heffect.sound
    · rcases add_of_absent h he hhas ht value with ⟨w', hadd, hmigrated⟩ |
        ⟨error, w', hadd, hmigrated⟩
      · rw [hadd]
        exact hmigrated.sound
      · rw [hadd]
        exact hmigrated.sound.drop [value]
  · rw [add_of_not_owns h hnot]
    exact h.drop [value]

theorem remove_sound (h : w.Sound) (e : Entity) (t : T) :
    (w.remove e t).2.Sound := by
  rcases owned_or_not h e with ⟨he, a, values, hhas⟩ | hnot
  · by_cases ht : t ∈ a.types
    · obtain ⟨-, value, -, -, -, hlookup⟩ := value_of_mem h hhas ht
      obtain ⟨result, w', hmigrated, hremove⟩ := remove_of_mem h he hhas hlookup
      rw [hremove]
      exact hmigrated.sound
    · rw [remove_of_absent h he hhas ht]
      exact h
  · rw [remove_of_not_owns h hnot]
    exact h

theorem update_sound (h : w.Sound) (e : Entity) (t : T) (f : V → V) :
    (w.update e t f).2.Sound := by
  rcases owned_or_not h e with ⟨he, a, values, hhas⟩ | hnot
  · by_cases ht : t ∈ a.types
    · obtain ⟨_, _, w', hupdate, -, -, heffect, -⟩ := update_of_mem h he hhas ht f
      rw [hupdate]
      exact heffect.sound
    · rw [update_of_absent h he hhas ht]
      exact h
  · rw [update_of_not_owns h hnot]
    exact h

/-- Every world that operations lead to is sound. -/
theorem Reachable.sound {number : Nat} {settings : Settings}
    (h : Reachable number settings w) : w.Sound := by
  induction h with
  | create made => exact (create_sound made).1
  | prepare ts _ ih => exact (ensure_effect ih ts).sound
  | spawnStated stated bundle _ ih => exact spawnStated_sound ih stated bundle
  | spawnAs ts bundle _ ih => exact spawnAs_sound ih ts bundle
  | destroy e _ ih => exact destroy_sound ih e
  | add e t value _ ih => exact add_sound ih e t value
  | remove e t _ ih => exact remove_sound ih e t
  | update e t f _ ih => exact update_sound ih e t f
  | memory m _ ih => exact (ih.withMemory_effect m).sound

end World

end ArchetypeStore

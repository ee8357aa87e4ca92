import ArchetypeStore.Proofs.Sample
import ArchetypeStore.Proofs.World.Holdings

/-! # Every value is dropped once

  Each value that the caller hands in for the first time gets a serial. From then on it is
  in one place: stored in the row of a live entity, in the hands of the caller who got it
  back, or dropped, by the world or by the caller. A value that was given back may be handed
  in again. When the world ends, and the caller drops what it still holds, every serial has
  been dropped once.
-/

namespace ArchetypeStore

variable {T V : Type}

/-! ### Custody -/

/-- A value with the number under which it was handed in. -/
structure Tagged (V : Type) where
  serial : Nat
  value : V
  deriving DecidableEq

/-- A world, and what became of the values that are not in it. -/
structure Custody (T V : Type) where
  world : World T (Tagged V)
  /-- How many values were handed in. Their serials are the numbers below. -/
  handed : Nat
  /-- Values given back that the caller still holds. -/
  held : List (Tagged V)
  /-- Values that the caller has dropped. -/
  released : List (Tagged V)

/-- What the caller hands in: a new value, or one that it holds. -/
inductive Offer (V : Type) where
  | fresh (value : V)
  | again (serial : Nat)

/-- What the caller of a world may do. Calls that only read are left out. -/
inductive Act (T V : Type) where
  | prepare (ts : List T)
  | create (offers : Bundle T (Offer V))
  | createAs (ts : List T) (offers : Bundle T (Offer V))
  | destroy (e : Entity)
  | add (e : Entity) (t : T) (offer : Offer V)
  | remove (e : Entity) (t : T)
  /-- The value of a component changes, but it is no other component. -/
  | update (e : Entity) (t : T) (f : V → V)
  /-- Another component takes its place, and the caller gets the old one. -/
  | replace (e : Entity) (t : T) (offer : Offer V)
  /-- The caller drops a value that it holds. -/
  | release (serial : Nat)
  /-- Not an act of the caller: memory answers in another way from now on. -/
  | memory (m : Memory)

namespace Custody

/-- Nothing was handed in yet. -/
def start (w : World T (Tagged V)) : Custody T V := ⟨w, 0, [], []⟩

/-- Take a value out of the hands of the caller; `none` if it does not hold it. -/
def giveUp (c : Custody T V) (serial : Nat) : Option (Tagged V × Custody T V) :=
  (c.held.find? (·.serial == serial)).map fun v =>
    (v, { c with held := c.held.eraseP (·.serial == serial) })

/-- Hand in one value. -/
def handIn (c : Custody T V) : Offer V → Option (Tagged V × Custody T V)
  | .fresh value => some (⟨c.handed, value⟩, { c with handed := c.handed + 1 })
  | .again serial => c.giveUp serial

/-- Hand in the values of a bundle, one after the other. -/
def handInAll (c : Custody T V) :
    Bundle T (Offer V) → Option (Bundle T (Tagged V) × Custody T V)
  | [] => some ([], c)
  | (t, offer) :: rest =>
    match c.handIn offer with
    | none => none
    | some (v, c) =>
      match c.handInAll rest with
      | none => none
      | some (bundle, c) => some ((t, v) :: bundle, c)

variable [DecidableEq T] [ComponentType T]

/-- Carry out an act. A call with a value that the caller does not hold is not made. -/
def step (c : Custody T V) : Act T V → Custody T V
  | .prepare ts =>
    { c with world := { c.world with catalog := (c.world.catalog.ensure ts).2 } }
  | .create offers =>
    match c.handInAll offers with
    | none => c
    | some (bundle, c') => { c' with world := (c.world.spawn bundle).2 }
  | .createAs ts offers =>
    match c.handInAll offers with
    | none => c
    | some (bundle, c') => { c' with world := (c.world.spawnAs ts bundle).2 }
  | .destroy e => { c with world := (c.world.destroy e).2 }
  | .add e t offer =>
    match c.handIn offer with
    | none => c
    | some (v, c') => { c' with world := (c.world.add e t v).2 }
  | .remove e t =>
    match c.world.remove e t with
    | (.ok v, w) => { c with world := w, held := v :: c.held }
    | (.error _, w) => { c with world := w }
  | .update e t f =>
    { c with world := (c.world.update e t fun v => { v with value := f v.value }).2 }
  | .replace e t offer =>
    match c.handIn offer with
    | none => c
    | some (v, c') =>
      match c.world.update e t fun _ => v with
      | (none, _) => c
      | (some old, w) => { c' with world := w, held := old :: c'.held }
  | .release serial =>
    match c.giveUp serial with
    | none => c
    | some (v, c') => { c' with released := v :: c'.released }
  | .memory m => { c with world := c.world.withMemory m }

/-- Carry out acts in turn. -/
def run (c : Custody T V) (acts : List (Act T V)) : Custody T V := acts.foldl step c

/-- The world ends, and the caller drops what it still holds. -/
def finish (c : Custody T V) : Custody T V :=
  { c with world := c.world.close, held := [], released := c.held ++ c.released }

/-! ### One place for each value -/

/-- All values that were handed in, place after place. -/
def everywhere (c : Custody T V) : List (Tagged V) :=
  c.world.store.storedValues ++ c.held ++ (c.world.dropped ++ c.released)

/-- Each value that was handed in is in one place. -/
def Once (c : Custody T V) : Prop :=
  (c.everywhere.map (·.serial)).Perm (List.range c.handed)

/-- The values were handed in: they are new, or the caller held them. -/
structure HandsIn (c : Custody T V) (values : List (Tagged V)) (c' : Custody T V) : Prop where
  released : c'.released = c.released
  serials : ((values ++ c'.held).map (·.serial) ++ List.range c.handed).Perm
    (c.held.map (·.serial) ++ List.range c'.handed)

section places

variable {c c' : Custody T V}

omit [DecidableEq T] [ComponentType T]

theorem once_iff : c.Once ↔ ∀ serial,
    (c.world.store.storedValues.map (·.serial)).count serial +
      (c.held.map (·.serial)).count serial + ((c.world.dropped.map (·.serial)).count serial +
        (c.released.map (·.serial)).count serial) = (List.range c.handed).count serial := by
  unfold Once everywhere
  rw [List.perm_iff_count]
  simp only [List.map_append, List.count_append]

theorem HandsIn.refl (c : Custody T V) : c.HandsIn [] c := ⟨rfl, List.Perm.refl _⟩

theorem HandsIn.count {values : List (Tagged V)} (h : c.HandsIn values c') (serial : Nat) :
    (values.map (·.serial)).count serial + (c'.held.map (·.serial)).count serial +
        (List.range c.handed).count serial =
      (c.held.map (·.serial)).count serial + (List.range c'.handed).count serial := by
  have hserials := h.serials.count_eq serial
  simpa only [List.map_append, List.count_append] using hserials

theorem HandsIn.cons {v : Tagged V} {values : List (Tagged V)} {c'' : Custody T V}
    (h : c.HandsIn [v] c') (h' : c'.HandsIn values c'') : c.HandsIn (v :: values) c'' := by
  refine ⟨h'.released.trans h.released, ?_⟩
  rw [List.perm_iff_count]
  intro serial
  -- Each serial is counted: what is handed in first is not there for the rest.
  have hfirst := h.count serial
  have hrest := h'.count serial
  simp only [List.map_append, List.map_cons, List.map_nil, List.count_append, List.count_cons,
    List.count_nil, Nat.zero_add] at hfirst ⊢
  omega

theorem giveUp_some {serial : Nat} {v : Tagged V} (h : c.giveUp serial = some (v, c')) :
    c' = { c with held := c'.held } ∧ c.held.Perm (v :: c'.held) := by
  obtain ⟨v', hfind, heq⟩ := Option.map_eq_some_iff.mp h
  cases heq
  obtain ⟨hv, before, after, hheld, hbefore⟩ := List.find?_eq_some_iff_append.mp hfind
  refine ⟨rfl, ?_⟩
  have hafter : (v :: after).eraseP (·.serial == serial) = after := by
    rw [List.eraseP_cons, hv]
    rfl
  simp only
  rw [hheld, List.eraseP_append_right _ (by simpa using hbefore), hafter]
  exact List.perm_middle

theorem handIn_some {offer : Offer V} {v : Tagged V} (h : c.handIn offer = some (v, c')) :
    c.HandsIn [v] c' := by
  cases offer with
  | fresh value =>
    cases h
    refine ⟨rfl, ?_⟩
    rw [List.range_succ]
    exact (List.perm_append_comm_assoc [c.handed] _ _).trans
      (List.perm_append_comm.append_left _)
  | again serial =>
    obtain ⟨hc', hperm⟩ := giveUp_some h
    rw [hc']
    exact ⟨rfl, (hperm.symm.map _).append_right _⟩

theorem handInAll_some {offers : Bundle T (Offer V)} {bundle : Bundle T (Tagged V)}
    (h : c.handInAll offers = some (bundle, c')) : c.HandsIn bundle.values c' := by
  induction offers generalizing c bundle with
  | nil =>
    cases h
    exact HandsIn.refl _
  | cons offer rest ih =>
    unfold handInAll at h
    split at h
    · cases h
    · rename_i v c₁ hfirst
      split at h
      · cases h
      · rename_i bundle' c₂ hrest
        cases h
        exact (handIn_some hfirst).cons (ih hrest)

/-- Values come into the world and leave it in balance. -/
theorem Once.after (h : c.Once) {values back gone : List (Tagged V)} {w' : World T (Tagged V)}
    (hin : c.HandsIn values c') (hbalance : c.world.Balance w' values back gone) :
    Once { c' with world := w', held := back ++ c'.held } := by
  rw [once_iff] at h ⊢
  intro serial
  have hall := h serial
  -- What comes in, what stays and what goes add up for each serial.
  have hhanded := hin.count serial
  have hstored := (hbalance.stored.map (·.serial)).count_eq serial
  simp only [hbalance.dropped, hin.released, List.map_append, List.count_append]
    at hall hhanded hstored ⊢
  omega

/-- A value that changes keeps its serial. -/
theorem Once.changed (h : c.Once) {v v' : Tagged V} {w' : World T (Tagged V)}
    (hserial : v'.serial = v.serial) (hbalance : c.world.Balance w' [v'] [v] []) :
    Once { c with world := w' } := by
  rw [once_iff] at h ⊢
  intro serial
  have hall := h serial
  have hstored := (hbalance.stored.map (·.serial)).count_eq serial
  simp only [hbalance.dropped, hserial, List.map_append, List.map_cons, List.map_nil,
    List.nil_append, List.append_nil, List.count_append] at hall hstored ⊢
  omega

end places

/-! ### Why values are dropped -/

/-- What the world may drop in the course of an act. -/
inductive Drops (c : Custody T V) : Act T V → List (Tagged V) → Prop where
  | nothing (act : Act T V) : Drops c act []
  | overwritten {e : Entity} {t : T} {offer : Offer V} {v old : Tagged V} {c' : Custody T V}
      {w' : World T (Tagged V)} (offered : c.handIn offer = some (v, c'))
      (done : c.world.add e t v = (.ok (), w')) (present : c.world.read? e t = some old) :
      Drops c (.add e t offer) [old]
  | destroyed {e : Entity} {w' : World T (Tagged V)}
      (done : c.world.destroy e = (true, w')) :
      Drops c (.destroy e) (c.world.valuesOf e.item)
  | createRefused {offers : Bundle T (Offer V)} {bundle : Bundle T (Tagged V)}
      {c' : Custody T V} {error : StoreError} {w' : World T (Tagged V)}
      (offered : c.handInAll offers = some (bundle, c'))
      (refused : c.world.spawn bundle = (.error error, w')) :
      Drops c (.create offers) bundle.values
  | createAsRefused {ts : List T} {offers : Bundle T (Offer V)} {bundle : Bundle T (Tagged V)}
      {c' : Custody T V} {error : StoreError} {w' : World T (Tagged V)}
      (offered : c.handInAll offers = some (bundle, c'))
      (refused : c.world.spawnAs ts bundle = (.error error, w')) :
      Drops c (.createAs ts offers) bundle.values
  | addRefused {e : Entity} {t : T} {offer : Offer V} {v : Tagged V} {gone : List (Tagged V)}
      {c' : Custody T V} {error : StoreError} {w' : World T (Tagged V)}
      (offered : c.handIn offer = some (v, c'))
      (refused : c.world.add e t v = (.error error, w'))
      (spilt : c.world.Spills e.item gone) : Drops c (.add e t offer) (v :: gone)
  | removeRefused {e : Entity} {t : T} {gone : List (Tagged V)} {error : StoreError}
      {w' : World T (Tagged V)} (refused : c.world.remove e t = (.error error, w'))
      (spilt : c.world.Spills e.item gone) : Drops c (.remove e t) gone

/-- What an act does to the custody. -/
structure Kept (c : Custody T V) (act : Act T V) (c' : Custody T V) : Prop where
  sound : c'.world.Sound
  once : c'.Once
  cause : ∃ gone, c'.world.dropped = gone ++ c.world.dropped ∧ c.Drops act gone

section acts

variable {c : Custody T V} (hsound : c.world.Sound) (honce : c.Once)

include hsound honce

theorem kept_self (act : Act T V) : c.Kept act c :=
  ⟨hsound, honce, [], rfl, .nothing act⟩

omit hsound in
/-- Values that were handed in go through one operation of the world. -/
theorem kept_of {act : Act T V} {c' : Custody T V} {values back gone : List (Tagged V)}
    {w' : World T (Tagged V)} (hin : c.HandsIn values c') (hsound' : w'.Sound)
    (hbalance : c.world.Balance w' values back gone) (hcause : c.Drops act gone) :
    c.Kept act { c' with world := w', held := back ++ c'.held } :=
  ⟨hsound', honce.after hin hbalance, gone, hbalance.dropped, hcause⟩

/-- A bundle that was handed in is stored, or its values are dropped. -/
theorem spawned_kept {act : Act T V} {c' : Custody T V} {bundle : Bundle T (Tagged V)}
    {why : StoreError → Prop} {answer : Except StoreError Entity} {w' : World T (Tagged V)}
    (hin : c.HandsIn bundle.values c') (hspawned : c.world.Spawned bundle why answer w')
    (hcause : ∀ error, answer = .error error → c.Drops act bundle.values) :
    c.Kept act { c' with world := w' } := by
  have hbalance := hspawned.balance hsound
  cases answer with
  | ok e => exact kept_of honce hin hspawned.sound hbalance (.nothing act)
  | error error => exact kept_of honce hin hspawned.sound hbalance (hcause error rfl)

theorem create_kept (offers : Bundle T (Offer V)) :
    c.Kept (.create offers) (c.step (.create offers)) := by
  rw [step]
  cases hoffered : c.handInAll offers with
  | none => exact kept_self hsound honce _
  | some handed =>
    obtain ⟨bundle, c'⟩ := handed
    obtain ⟨answer, w', hspawn, hspawned⟩ := World.spawn_spawned hsound bundle
    simp only [hspawn]
    refine spawned_kept hsound honce (handInAll_some hoffered) hspawned ?_
    rintro error rfl
    exact .createRefused hoffered hspawn

theorem createAs_kept (ts : List T) (offers : Bundle T (Offer V)) :
    c.Kept (.createAs ts offers) (c.step (.createAs ts offers)) := by
  rw [step]
  cases hoffered : c.handInAll offers with
  | none => exact kept_self hsound honce _
  | some handed =>
    obtain ⟨bundle, c'⟩ := handed
    obtain ⟨answer, w', hspawn, hspawned⟩ := World.spawnAs_spawned hsound ts bundle
    simp only [hspawn]
    refine spawned_kept hsound honce (handInAll_some hoffered) hspawned ?_
    rintro error rfl
    exact .createAsRefused hoffered hspawn

theorem destroy_kept (e : Entity) : c.Kept (.destroy e) (c.step (.destroy e)) := by
  have hsound' := World.destroy_sound hsound e
  rw [step]
  rcases World.destroy_balance hsound e with hdestroy | ⟨w', hdestroy, hbalance⟩
  · rw [hdestroy]
    exact kept_self hsound honce _
  · rw [hdestroy] at hsound' ⊢
    exact kept_of honce (.refl c) hsound' hbalance (.destroyed hdestroy)

theorem add_kept (e : Entity) (t : T) (offer : Offer V) :
    c.Kept (.add e t offer) (c.step (.add e t offer)) := by
  rw [step]
  cases hoffered : c.handIn offer with
  | none => exact kept_self hsound honce _
  | some handed =>
    obtain ⟨v, c'⟩ := handed
    have hsound' := World.add_sound hsound e t v
    simp only
    rcases World.add_balance hsound e t v with ⟨w', hadd, hbalance⟩ |
      ⟨error, w', gone, hadd, hspilt, hbalance⟩
    · rw [hadd] at hsound' ⊢
      refine kept_of honce (handIn_some hoffered) hsound' hbalance ?_
      cases hread : c.world.read? e t with
      | none => exact .nothing _
      | some old => exact .overwritten hoffered hadd hread
    · rw [hadd] at hsound' ⊢
      exact kept_of honce (handIn_some hoffered) hsound' hbalance
        (.addRefused hoffered hadd hspilt)

theorem remove_kept (e : Entity) (t : T) : c.Kept (.remove e t) (c.step (.remove e t)) := by
  have hsound' := World.remove_sound hsound e t
  rw [step]
  rcases World.remove_balance hsound e t with ⟨v, w', hremove, hbalance⟩ |
    ⟨error, w', gone, hremove, hspilt, hbalance⟩
  · rw [hremove] at hsound' ⊢
    exact kept_of honce (.refl c) hsound' hbalance (.nothing _)
  · rw [hremove] at hsound' ⊢
    exact kept_of honce (.refl c) hsound' hbalance (.removeRefused hremove hspilt)

theorem update_kept (e : Entity) (t : T) (f : V → V) :
    c.Kept (.update e t f) (c.step (.update e t f)) := by
  have hsound' := World.update_sound hsound e t fun v => { v with value := f v.value }
  rw [step]
  rcases World.update_balance hsound e t fun v => { v with value := f v.value } with
    hupdate | ⟨v, w', hupdate, hbalance⟩
  · rw [hupdate]
    exact kept_self hsound honce _
  · rw [hupdate] at hsound' ⊢
    have honce' : Once { c with world := w' } := honce.changed (by rfl) hbalance
    exact ⟨hsound', honce', [], hbalance.dropped, .nothing _⟩

theorem replace_kept (e : Entity) (t : T) (offer : Offer V) :
    c.Kept (.replace e t offer) (c.step (.replace e t offer)) := by
  rw [step]
  cases hoffered : c.handIn offer with
  | none => exact kept_self hsound honce _
  | some handed =>
    obtain ⟨v, c'⟩ := handed
    have hsound' := World.update_sound hsound e t fun _ => v
    simp only
    rcases World.update_balance hsound e t fun _ => v with
      hupdate | ⟨old, w', hupdate, hbalance⟩
    · rw [hupdate]
      exact kept_self hsound honce _
    · rw [hupdate] at hsound' ⊢
      exact kept_of honce (handIn_some hoffered) hsound' hbalance (.nothing _)

theorem release_kept (serial : Nat) :
    c.Kept (.release serial) (c.step (.release serial)) := by
  rw [step]
  cases hgiven : c.giveUp serial with
  | none => exact kept_self hsound honce _
  | some given =>
    obtain ⟨v, c'⟩ := given
    obtain ⟨hc', hperm⟩ := giveUp_some hgiven
    simp only
    rw [hc']
    refine ⟨hsound, ?_, [], rfl, .nothing _⟩
    rw [once_iff] at honce ⊢
    intro serial'
    have hall := honce serial'
    -- The value goes from the hands of the caller to what it dropped.
    have hheld := (hperm.map (·.serial)).count_eq serial'
    simp only [List.map_cons, List.count_cons] at hheld ⊢
    omega

/-- Every act keeps each value in one place. -/
theorem step_kept (act : Act T V) : c.Kept act (c.step act) := by
  cases act with
  | prepare ts =>
    have heffect := World.ensure_effect hsound ts
    exact kept_of honce (.refl c) heffect.sound (heffect.balance hsound) (.nothing _)
  | create offers => exact create_kept hsound honce offers
  | createAs ts offers => exact createAs_kept hsound honce ts offers
  | destroy e => exact destroy_kept hsound honce e
  | add e t offer => exact add_kept hsound honce e t offer
  | remove e t => exact remove_kept hsound honce e t
  | update e t f => exact update_kept hsound honce e t f
  | replace e t offer => exact replace_kept hsound honce e t offer
  | release serial => exact release_kept hsound honce serial
  | memory m =>
    have heffect := hsound.withMemory_effect m
    exact kept_of honce (.refl c) heffect.sound (heffect.balance hsound) (.nothing (.memory m))

/-- Every run keeps each value in one place. -/
theorem run_once (acts : List (Act T V)) :
    (c.run acts).world.Sound ∧ (c.run acts).Once := by
  induction acts generalizing c with
  | nil => exact ⟨hsound, honce⟩
  | cons act acts ih =>
    have hkept := step_kept hsound honce act
    exact ih hkept.sound hkept.once

end acts

/-! ### Exactly once -/

/-- The account of all values that were handed in. -/
structure Exact (c : Custody T V) : Prop where
  /-- Each is in one place: stored, held or dropped. -/
  once : c.Once
  /-- What is stored is what the live entities have in their rows. -/
  stored : c.world.store.storedValues.Perm (c.world.living.flatMap c.world.valuesOf)
  /-- What the world drops next it has a reason to drop. -/
  cause : ∀ act, ∃ gone, (c.step act).world.dropped = gone ++ c.world.dropped ∧
    c.Drops act gone
  /-- In the end nothing is stored, and each value was dropped, by the world or the caller. -/
  ended : c.finish.world.store.storedValues = [] ∧
    ((c.finish.world.dropped ++ c.finish.released).map (·.serial)).Perm (List.range c.handed)

/-- A custody that has each value in one place is exact. -/
theorem exact_of_once {c : Custody T V} (hsound : c.world.Sound) (honce : c.Once) :
    c.Exact := by
  refine ⟨honce, World.storedValues_perm hsound, fun act => ?_, ?_⟩
  · exact (step_kept hsound honce act).cause
  · obtain ⟨hbalance, hnothing⟩ := World.close_balance hsound
    refine ⟨hnothing, ?_⟩
    have hdropped : c.finish.world.dropped = c.world.store.storedValues ++ c.world.dropped :=
      hbalance.dropped
    have hreleased : c.finish.released = c.held ++ c.released := rfl
    rw [once_iff] at honce
    rw [hdropped, hreleased, List.perm_iff_count]
    intro serial
    have hall := honce serial
    simp only [List.map_append, List.count_append] at hall ⊢
    omega

/-- Whatever is done to a world from its creation on, each value that was handed in is in one
place at every point, and is dropped once in the end. -/
theorem run_exact {number : Nat} {settings : Settings} {w : World T (Tagged V)}
    (hcreate : World.create number settings = .ok w) (acts : List (Act T V)) :
    ((start w).run acts).Exact := by
  obtain ⟨hsound, -, hsize, hdropped⟩ := World.create_sound hcreate
  have hempty : w.store.storedValues = [] := by
    have hperm := World.storedValues_perm hsound
    rw [World.flatMap_living hsound, hsize] at hperm
    exact hperm.eq_nil
  -- In the beginning no value is anywhere, and none was handed in.
  have honce : (start w).Once := by
    unfold Once everywhere start
    simp only [hempty, hdropped]
    exact List.Perm.refl _
  obtain ⟨hsound', honce'⟩ := run_once (c := start w) hsound honce acts
  exact exact_of_once hsound' honce'

/-- Four entities fill the only chunk of their archetype. A fifth one is to join them and is
lost, one of the four gives a value back, and the caller hands it in again. -/
def passing : List (Act Sample Nat) :=
  [.create [(.position, .fresh 0), (.velocity, .fresh 1)],
    .create [(.velocity, .fresh 2), (.position, .fresh 3)],
    .create [(.position, .fresh 4), (.velocity, .fresh 5)],
    .create [(.position, .fresh 6), (.velocity, .fresh 7)],
    .create [(.position, .fresh 8)], .add ⟨0, 4⟩ .velocity (.fresh 9),
    .update ⟨0, 0⟩ .velocity (· + 1), .remove ⟨0, 0⟩ .velocity, .destroy ⟨0, 1⟩,
    .add ⟨0, 0⟩ .velocity (.again 1), .replace ⟨0, 0⟩ .position (.fresh 10), .release 0]

/-- The smallest chunks, and two of them. -/
def narrow : Settings := ⟨2, some 2, 1, 1, 0⟩

/-- What the caller never got back the world drops, the values of the entity that was lost
first of all; what it got back and kept it drops itself. -/
theorem run_exact_passing : ∃ w : World Sample (Tagged Nat), World.create 0 narrow = .ok w ∧
    ((start w).run passing).Exact ∧
      ((start w).run passing).finish.world.dropped.map (·.serial) =
        [6, 7, 4, 5, 10, 1, 3, 2, 9, 8] ∧
      ((start w).run passing).finish.released.map (·.serial) = [0] ∧
      ((start w).run passing).handed = 11 := by
  obtain ⟨w, hcreate, hdrops⟩ : ∃ w : World Sample (Tagged Nat), World.create 0 narrow = .ok w ∧
      (((start w).run passing).finish.world.dropped.map (·.serial),
        ((start w).run passing).finish.released.map (·.serial),
        ((start w).run passing).handed) = ([6, 7, 4, 5, 10, 1, 3, 2, 9, 8], [0], 11) :=
    exists_of_map (by decide +kernel)
  simp only [Prod.mk.injEq] at hdrops
  exact ⟨w, hcreate, run_exact hcreate passing, hdrops⟩

end Custody

end ArchetypeStore

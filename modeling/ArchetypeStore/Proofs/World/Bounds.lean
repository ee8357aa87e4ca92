import ArchetypeStore.Proofs.World.Checked
import ArchetypeStore.Proofs.World.Walks

/-! # No bound is broken

  Operations of worlds and calls past them follow each other in any order. Every state on the
  way is regular, so each of them keeps the bounds that it relies on, and the run with bounds
  is the run without them.
-/

namespace ArchetypeStore

variable {T V : Type}

namespace World

variable [DecidableEq T] [ComponentType T] {w : World T V} {reserved : List SlotId}

/-! ### Events -/

/-- The world after an event. The events that are not named touch no row. -/
def nextChecked (w : World T V) : Event T V → Except Breach (World T V)
  | .call (.create bundle) => do return (← w.spawnStatedChecked bundle.types bundle).2
  | .call (.createAs stated bundle) => do return (← w.spawnStatedChecked stated bundle).2
  | .call (.destroy e) => do return (← w.destroyChecked e).2
  | .call (.add e t value) => do return (← w.addChecked e t value).2
  | .call (.remove e t) => do return (← w.removeChecked e t).2
  | .call (.read e t) => do
    let _ ← w.readChecked e t
    return w
  | .call (.update e t f) => do return (← w.updateChecked e t f).2
  | .spawnIn key bundle =>
    match w.catalog.archetype? key with
    | none => .ok w
    | some a => do return (← w.spawnInChecked a bundle).2
  | event => .ok (w.next event)

theorem nextChecked_eq (h : w.Regular reserved) (event : Event T V) :
    w.nextChecked event = .ok (w.next event) := by
  cases event with
  | call c =>
    cases c with
    | create bundle => simp [nextChecked, next, spawn, spawnStatedChecked_eq h]
    | createAs stated bundle => simp [nextChecked, next, spawnStatedChecked_eq h]
    | destroy e =>
      rw [nextChecked, destroyChecked_eq h]
      rfl
    | add e t value => simp [nextChecked, next, addChecked_eq h]
    | remove e t => simp [nextChecked, next, removeChecked_eq h]
    | read e t =>
      rw [nextChecked, readChecked_eq h]
      rfl
    | update e t f =>
      rw [nextChecked, updateChecked_eq h]
      rfl
    | has e t => rfl
    | count => rfl
    | memory m => rfl
  | register t => rfl
  | node ts => rfl
  | archetype ts => rfl
  | spawnIn key bundle =>
    unfold nextChecked next
    dsimp only
    cases ha : w.catalog.archetype? key with
    | none => rfl
    | some a =>
      dsimp only
      rw [spawnInChecked_eq h (h.houses ha)]
      rfl

/-! ### Walks -/

/-- In each chunk of a view the slots of the query are columns. -/
theorem Regular.view_columns (h : w.Regular reserved)
    (query : Shape T) {archetypes : List (Archetype T)}
    (hthere : ∀ a ∈ archetypes, ∃ key, w.catalog.archetype? key = some a) :
    ∀ part ∈ (View.ofArchetypes w.registry query archetypes).parts,
      ∀ chunk ∈ w.store.chain part.archetype.partition, ∀ slot ∈ part.slots.leaves,
        slot < w.store.columnCount chunk := by
  intro part hpart chunk hc slot hslot
  obtain ⟨ha, hslots⟩ := View.mem_parts_of_archetypes hpart
  obtain ⟨key, hkey⟩ := hthere _ ha
  have hhouses := h.houses hkey
  rw [h.store.toWired.columnCount_eq h.store.toChained hc hhouses.layout]
  obtain ⟨t, -, ht⟩ := Shape.of_mem_leaves hslots slot hslot
  exact h.slot_lt hhouses ht

end World

/-! ### Uses -/

namespace SharedWorld

variable [DecidableEq T] [ComponentType T]

/-- What a use leaves. The uses that are not named touch no row. -/
def nextChecked (s : SharedWorld T V) : Use T V → Except Breach (SharedWorld T V)
  | .event event => do
    let world ← s.world.nextChecked event
    return { s with world }
  | .spawnAs ts bundle => do
    let (_, world) ← s.world.spawnAsChecked ts bundle
    return { s with world }
  | .rows call => do
    let pool ← s.pool.nextChecked call
    return ⟨s.world.withStore pool.store, pool.reserved⟩
  | use => .ok (s.next use)

/-- What is left after uses, the first one first. -/
def runChecked (s : SharedWorld T V) : List (Use T V) → Except Breach (SharedWorld T V)
  | [] => .ok s
  | use :: rest => do
    let s ← s.nextChecked use
    s.runChecked rest

variable {s : SharedWorld T V}

theorem nextChecked_eq (h : s.world.Regular s.reserved) {use : Use T V} (hallows : s.Allows use) :
    s.nextChecked use = .ok (s.next use) := by
  cases use with
  | event event =>
    rw [nextChecked, World.nextChecked_eq h]
    rfl
  | spawnAs ts bundle =>
    rw [nextChecked, World.spawnAsChecked_eq h]
    rfl
  | register call => rfl
  | materialize key => rfl
  | link source target => rfl
  | item home => rfl
  | rows call =>
    have hfills : s.pool.store.Fills call := by
      cases call with
      | newItem => exact hallows.elim
      | _ => exact hallows.2
    have hpool : s.pool.store.Regular s.pool.reserved := h.store
    rw [nextChecked, Pool.nextChecked_eq hpool hfills]
    rfl

theorem runChecked_eq (h : s.world.Regular s.reserved) {uses : List (Use T V)}
    (horderly : s.Orderly uses) : s.runChecked uses = .ok (s.after uses) := by
  induction uses generalizing s with
  | nil => rfl
  | cons use rest ih =>
    rw [runChecked, nextChecked_eq h horderly.1, Breach.ok_bind]
    exact ih (next_regular h horderly.1) horderly.2

/-- No bound is broken along the calls of any row store, and none along the uses of any world:
in either case what the bounds let through is what the operations do. Ids may be handed in at
will, as long as those that are registered are out. -/
theorem bounds_kept :
    (∀ (rowBits : Nat) (limit : Option Nat) (format : IdFormat),
      IdFormat.create rowBits limit = .ok format → ∀ calls : List (RowStore.Call T V),
      (Pool.empty format).Orderly calls → (Pool.empty format).Filling calls →
        (Pool.empty format).runChecked calls = .ok ((Pool.empty format).after calls) ∧
          ((Pool.empty format).after calls).store.InBounds) ∧
    ∀ (number : Nat) (settings : Settings) (w : World T V),
      World.create number settings = .ok w → ∀ uses : List (Use T V), (ofWorld w).Orderly uses →
        (ofWorld w).runChecked uses = .ok ((ofWorld w).after uses) ∧
          ((ofWorld w).after uses).world.store.InBounds ∧
          ∀ (query : Shape T) (archetypes : List (Archetype T)),
            (∀ a ∈ archetypes,
              ∃ key, ((ofWorld w).after uses).world.catalog.archetype? key = some a) →
            ∀ part ∈ (((ofWorld w).after uses).view query archetypes).parts,
              ∀ chunk ∈ ((ofWorld w).after uses).world.store.chain part.archetype.partition,
                ∀ slot ∈ part.slots.leaves,
                  slot < ((ofWorld w).after uses).world.store.columnCount chunk := by
  constructor
  · intro rowBits limit format hformat calls horderly hfilling
    have hempty := RowStore.empty_regular (T := T) (V := V) (IdFormat.create_valid hformat)
    obtain ⟨hrun, hregular⟩ := Pool.runChecked_eq hempty horderly hfilling
    exact ⟨hrun, hregular.toSound.inBounds⟩
  · intro number settings w made uses horderly
    have hregular := horderly.regular_of_create made
    exact ⟨runChecked_eq (create_regular made) horderly, hregular.store.toSound.inBounds,
      fun query archetypes hthere => hregular.view_columns query hthere⟩

/-- A row is reserved and registered, and a hole is left and filled. An id is asked for that was
never issued. -/
def reserving : List (RowStore.Call Sample Nat) :=
  [.newPartition [.position], .newItem, .newItem, .newItem, .insert 0 0 [10], .issue 0,
    .evict 0 0 fun _ => Except.ok (), .row 0 4294967295, .occupy 0 1 1 [11], .insert 0 2 [12]]

/-- Five entities, more than a chunk has rows for. One of the old chunk is destroyed, and one
gains a component and loses it again. -/
def crowding : List (Use Sample Nat) :=
  [.event (.call (.create [(.position, 10)])), .event (.call (.create [(.position, 11)])),
    .event (.call (.create [(.position, 12)])), .event (.call (.create [(.position, 13)])),
    .event (.call (.create [(.position, 14)])), .event (.call (.destroy ⟨0, 1⟩)),
    .event (.call (.add ⟨0, 0⟩ .velocity 90)), .event (.call (.remove ⟨0, 0⟩ .velocity)),
    .rows (.row 0 4294967295), .rows (.issue 0)]

theorem bounds_kept_crowded :
    (Pool.empty ⟨2, 1 <<< 28⟩).Orderly reserving ∧ (Pool.empty ⟨2, 1 <<< 28⟩).Filling reserving ∧
      ((Pool.empty ⟨2, 1 <<< 28⟩).after reserving).store.InBounds ∧
      ∃ w : World Sample Nat, World.create 0 narrow = .ok w ∧ (ofWorld w).Orderly crowding ∧
        (ofWorld w).runChecked crowding = .ok ((ofWorld w).after crowding) ∧
        ((ofWorld w).after crowding).world.store.chunkCount = 3 := by
  have hout : (1 : SlotId) ∈ ((Pool.empty ⟨2, 1 <<< 28⟩).after (reserving.take 8)).reserved := by
    decide +kernel
  have hlayout : ∀ n ∈ [4, 8, 9], ((Pool.empty ⟨2, 1 <<< 28⟩).after
      (reserving.take n)).store.layout? 0 = some [Sample.position] := by decide +kernel
  have horderly : (Pool.empty ⟨2, 1 <<< 28⟩).Orderly reserving :=
    ⟨trivial, trivial, trivial, trivial, trivial, trivial, trivial, trivial, hout, trivial,
      trivial⟩
  have hone : ∀ n ∈ [4, 8, 9], ∀ (value : Nat) layout, ((Pool.empty ⟨2, 1 <<< 28⟩).after
      (reserving.take n)).store.layout? 0 = some layout → [value].length = layout.length := by
    intro n hn value layout h
    rw [hlayout n hn] at h
    cases h
    rfl
  have hfilling : (Pool.empty ⟨2, 1 <<< 28⟩).Filling reserving :=
    ⟨trivial, trivial, trivial, trivial, hone 4 (by decide) 10, trivial, trivial, trivial,
      hone 8 (by decide) 11, hone 9 (by decide) 12, trivial⟩
  have hmade : ((World.create 0 narrow : Except StoreError (World Sample Nat)).map fun w =>
      ((ofWorld w).after crowding).world.store.chunkCount) = .ok 3 := by decide +kernel
  refine ⟨horderly, hfilling,
    (bounds_kept.1 2 none ⟨2, 1 <<< 28⟩ rfl reserving horderly hfilling).2, ?_⟩
  obtain ⟨w, hcreate, hcount⟩ := exists_of_map hmade
  have horderly : (ofWorld w).Orderly crowding := by
    simp [crowding, Orderly, Allows, Pool.Allows, RowStore.Fills]
  exact ⟨w, hcreate, horderly, (bounds_kept.2 0 narrow w hcreate crowding horderly).1, hcount⟩

/-- When the id of the hole is registered instead, which is not out, the next item that is
stored meets an occupied row. -/
example : ((Pool.empty ⟨2, 1 <<< 28⟩).runChecked
    [.newPartition [Sample.position], .newItem, .newItem, .newItem, .insert 0 0 [10], .issue 0,
      .evict 0 0 fun _ => Except.ok (), .occupy 0 0 1 [11], .insert 0 2 [12]]).map (·.reserved) =
    .error .occupied := by decide +kernel

end SharedWorld

end ArchetypeStore

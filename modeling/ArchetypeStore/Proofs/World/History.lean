import ArchetypeStore.Proofs.Catalog.Exact
import ArchetypeStore.Proofs.World.Refinement

/-! # Histories of a world

  Between its calls a world may be asked for the index of a type, for nodes and for
  archetypes, and entities may be made in an archetype at hand. Whatever happens to a world
  keeps its invariant. Types, nodes and archetypes come from the requests alone: apart from
  its request an event moves entities between rows and leaves the rest of the catalog as it
  is. So an archetype that was made stays for good.
-/

namespace ArchetypeStore

variable {T V : Type}

/-! ### The format of a row store -/

namespace RowStore

section format

variable {s s' : RowStore T V} {partition : Nat}

theorem format_claimNext (s : RowStore T V) (partition : Nat) :
    (s.claimNext partition).2.format = s.format := by
  unfold claimNext
  split
  · rfl
  · split <;> rfl

theorem format_issueSpare (s : RowStore T V) (partition : Nat) :
    (s.issueSpare partition).2.format = s.format := by
  unfold issueSpare
  split
  · rfl
  · split
    · exact format_claimNext s partition
    · split
      · rfl
      · exact format_claimNext _ partition

theorem format_occupyRow (s : RowStore T V) (chunk row item : Nat) (values : List V) :
    (s.occupyRow chunk row item values).2.format = s.format := by
  unfold occupyRow
  split <;> rfl

theorem format_evictRow (s : RowStore T V) (partition chunk row : Nat) :
    (s.evictRow partition chunk row).2.format = s.format := by
  have hlast : ∀ (s : RowStore T V) last,
      (s.giveUpLast partition chunk last).format = s.format := by
    intro s last
    unfold giveUpLast
    split <;> rfl
  unfold evictRow
  simp only
  split
  · exact hlast s _
  · split
    · rfl
    · exact hlast _ _

theorem format_makeRoom {answer : Except StoreError Unit}
    (h : s.makeRoom partition = (answer, s')) : s'.format = s.format := by
  unfold makeRoom at h
  split at h
  · cases h
    rfl
  · split at h
    · cases h
      rfl
    · split at h
      · cases h
        rfl
      · cases h
        rfl

theorem format_evict {α : Type} (s : RowStore T V) (partition : Nat) (id : SlotId)
    (accept : RowView V → Except StoreError α) :
    (s.evict partition id accept).2.format = s.format := by
  unfold evict
  split
  · rfl
  · split
    · rfl
    · split
      · rename_i hroom
        exact format_makeRoom hroom
      · rename_i s₁ hroom
        split
        · exact format_makeRoom hroom
        · exact (format_evictRow s₁ partition _ _).trans (format_makeRoom hroom)

variable [ComponentType T]

theorem format_newChunk {layout : List T} {previous : Option Nat} {answer : Except StoreError Nat}
    (h : s.newChunk layout previous = (answer, s')) : s'.format = s.format := by
  cases answer with
  | error e => rw [(newChunk_error h).1]
  | ok chunk => exact (newChunk_ok h).2.2.2.format

theorem format_extend {answer : Except StoreError Unit}
    (h : s.extend partition = (answer, s')) : s'.format = s.format := by
  unfold extend at h
  split at h
  · cases h
    rfl
  · split at h
    · rename_i hnew
      cases h
      exact format_newChunk hnew
    · rename_i hnew
      have hchunk := format_newChunk hnew
      cases h
      exact hchunk

theorem format_issue (s : RowStore T V) (partition : Nat) :
    (s.issue partition).2.format = s.format := by
  have hspare := format_issueSpare s partition
  unfold issue
  split
  · rename_i hfirst
    rwa [hfirst] at hspare
  · rename_i s₁ hfirst
    rw [hfirst] at hspare
    split
    · rename_i hextend
      exact (format_extend hextend).trans hspare
    · rename_i s₂ hextend
      have hsecond := format_issueSpare s₂ partition
      split
      all_goals
        rename_i hagain
        rw [hagain] at hsecond
        exact hsecond.trans ((format_extend hextend).trans hspare)

theorem format_insert (s : RowStore T V) (partition item : Nat) (values : List V) :
    (s.insert partition item values).2.format = s.format := by
  have hissue := format_issue s partition
  unfold insert
  split
  · rename_i hfirst
    rwa [hfirst] at hissue
  · rename_i s₁ hfirst
    rw [hfirst] at hissue
    split
    · exact hissue
    · rename_i id _ chunk row _
      have hoccupy := format_occupyRow (s₁.setId item id) chunk row item values
      split
      all_goals
        rename_i hrow
        rw [hrow] at hoccupy
        exact hoccupy.trans hissue

end format

end RowStore

namespace World

/-! ### What moves leave alone -/

/-- The second world has the registry and the nodes of the first. -/
structure KeepsCatalog (w w' : World T V) : Prop where
  catalog : w'.catalog = { w.catalog with store := w'.store }
  format : w'.store.format = w.store.format

namespace KeepsCatalog

theorem refl (w : World T V) : w.KeepsCatalog w := ⟨rfl, rfl⟩

theorem trans {w w' w'' : World T V} (h : w.KeepsCatalog w') (h' : w'.KeepsCatalog w'') :
    w.KeepsCatalog w'' := by
  refine ⟨?_, h'.format.trans h.format⟩
  rw [h'.catalog, h.catalog]

theorem withStore (w : World T V) {store : RowStore T V} (h : store.format = w.store.format) :
    w.KeepsCatalog (w.withStore store) := ⟨rfl, h⟩

theorem archetype? {w w' : World T V} (h : w.KeepsCatalog w') (key : UInt64) :
    w'.catalog.archetype? key = w.catalog.archetype? key := by
  rw [h.catalog]
  rfl

end KeepsCatalog

section moves

variable {α : Type}

theorem changeAt_keeps (w : World T V) (e : Entity) (a : Archetype T) (id : SlotId) (slot : Nat)
    (f : V → V) : w.KeepsCatalog (w.changeAt e a id slot f).2 := by
  unfold changeAt
  split
  · exact .refl w
  · split
    · exact .refl w
    · exact .withStore w rfl

/-- What every run of a body does to a world, the access does. -/
theorem access_relates {R : World T V → World T V → Prop} (hrefl : ∀ w, R w w)
    (htrans : ∀ {w w' w''}, R w w' → R w' w'' → R w w'') {w w' : World T V} {e : Entity}
    {body : Body T V α} {answer : Except StoreError α}
    (hbody : ∀ (w : World T V) a id, R w (body w a id).2)
    (h : w.access e body = (answer, w')) : R w w' := by
  have hrounds : ∀ rounds (w : World T V) answer, w.tryAccess e body rounds = some answer →
      R w answer.2.2 := by
    intro rounds
    induction rounds with
    | zero =>
      intro w answer htry
      cases htry
    | succ rounds ih =>
      intro w answer htry
      unfold tryAccess at htry
      split at htry
      · cases htry
        exact hrefl w
      · exact ih w answer htry
      · rename_i a id _
        have hfirst := hbody w a id
        split at htry
        · rename_i w₁ hrun
          rw [hrun] at hfirst
          obtain ⟨later, hlater, rfl⟩ := Option.map_eq_some_iff.mp htry
          exact htrans hfirst (ih w₁ later hlater)
        · cases htry
          exact hfirst
  unfold access at h
  split at h
  · cases h
    exact hrefl w
  · rename_i htry
    cases h
    exact hrounds patience w _ htry

theorem access_keeps {w w' : World T V} {e : Entity} {body : Body T V α}
    {answer : Except StoreError α}
    (hbody : ∀ (w : World T V) a id, w.KeepsCatalog (body w a id).2)
    (h : w.access e body = (answer, w')) : w.KeepsCatalog w' :=
  access_relates .refl .trans hbody h

theorem destroy_keeps (w : World T V) (e : Entity) : w.KeepsCatalog (w.destroy e).2 := by
  unfold destroy
  split
  all_goals
    rename_i hrun
    refine access_keeps (fun w a id => ?_) hrun
    have hformat := RowStore.format_evict w.store a.partition id fun v =>
      if holds e v && w.isAtRest e v then (.ok () : Except StoreError Unit)
      else .error .entityNotFound
    split
    all_goals
      rename_i hevict
      rw [hevict] at hformat
      exact ⟨rfl, hformat⟩

theorem moveOut_keeps [ComponentType T] (w : World T V) (e : Entity) (a : Archetype T)
    (id : SlotId) : w.KeepsCatalog (w.moveOut e a id).2 := by
  have hformat := RowStore.format_evict w.store a.partition id fun v =>
    if holds e v then do
      allocateAll w.store.memory a.types
      if w.isAtRest e v then .ok () else .error .entityNotFound
    else .error .entityNotFound
  unfold moveOut
  split
  all_goals
    rename_i hevict
    rw [hevict] at hformat
    exact ⟨rfl, hformat⟩

variable [ComponentType T] [DecidableEq T]

theorem update_keeps (w : World T V) (e : Entity) (t : T) (f : V → V) :
    w.KeepsCatalog (w.update e t f).2 := by
  unfold update
  split
  all_goals
    rename_i hrun
    refine access_keeps (fun w a id => ?_) hrun
    split
    · exact .refl w
    · exact changeAt_keeps w e a id _ f

theorem moveIn_keeps (w : World T V) (a : Archetype T) (item : Nat) (components : Bundle T V) :
    w.KeepsCatalog (w.moveIn a item components).2 := by
  unfold moveIn
  split
  · exact .refl w
  · exact ⟨rfl, RowStore.format_insert w.store a.partition item _⟩

theorem spawnIn_keeps (w : World T V) (a : Archetype T) (bundle : Bundle T V) :
    w.KeepsCatalog (w.spawnIn a bundle).2 := by
  have hnew : w.KeepsCatalog (w.newEntity a.key).2 := ⟨rfl, rfl⟩
  have hmove := moveIn_keeps (w.newEntity a.key).2 a (w.newEntity a.key).1.item bundle
  unfold spawnIn
  simp only
  split
  · exact hnew.trans ⟨hmove.catalog, hmove.format⟩
  · refine hnew.trans (hmove.trans ⟨rfl, rfl⟩)

theorem finishMove_keeps (w : World T V) (e : Entity) (target : Archetype T)
    (carried gained : Bundle T V) : w.KeepsCatalog (w.finishMove e target carried gained).2 := by
  have hmove := moveIn_keeps w target e.item (carried ++ gained)
  unfold finishMove
  split
  all_goals
    rename_i hmoved
    rw [hmoved] at hmove
    exact hmove.trans ⟨rfl, rfl⟩

/-- Apart from the request for the larger set, gaining a component moves an entity. -/
theorem gain_keeps (w : World T V) (e : Entity) (a : Archetype T) (id : SlotId) (t : T)
    (value : V) : KeepsCatalog { w with catalog := (w.catalog.ensure (a.types ++ [t])).2 }
      (w.gain e a id t value).2 := by
  unfold gain
  cases w.catalog.ensure (a.types ++ [t]) with
  | mk answer catalog =>
    cases answer with
    | error error => exact .refl _
    | ok target =>
      have hout := moveOut_keeps { w with catalog } e a id
      simp only
      split
      · rename_i hmoved
        rwa [hmoved] at hout
      · rename_i carried w₁ hmoved
        rw [hmoved] at hout
        exact hout.trans (finishMove_keeps w₁ e target carried [(t, value)])

/-- Apart from the request for the smaller set, losing a component moves an entity. -/
theorem lose_keeps (w : World T V) (e : Entity) (a : Archetype T) (id : SlotId) (t : T) :
    KeepsCatalog { w with catalog := (w.catalog.ensure (a.types.filter (· ≠ t))).2 }
      (w.lose e a id t).2 := by
  unfold lose
  cases w.catalog.ensure (a.types.filter (· ≠ t)) with
  | mk answer catalog =>
    cases answer with
    | error error => exact .refl _
    | ok target =>
      have hout := moveOut_keeps { w with catalog } e a id
      simp only
      split
      · rename_i hmoved
        rwa [hmoved] at hout
      · rename_i carried w₁ hmoved
        rw [hmoved] at hout
        split
        · exact hout.trans ⟨rfl, rfl⟩
        · have hfinish := finishMove_keeps w₁ e target (carried.eraseP (·.1 == t)) []
          split
          all_goals
            rename_i hfinished
            rw [hfinished] at hfinish
            exact hout.trans (hfinish.trans ⟨rfl, rfl⟩)

end moves

end World

/-! ### Events -/

/-- What may happen to a world: a call, or a request to its catalog. -/
inductive Event (T V : Type) where
  | call (c : Call T V)
  /-- A type is given its index by itself. -/
  | register (t : T)
  /-- The node of a component set is asked for. -/
  | node (ts : List T)
  /-- The archetype of a component set is asked for. -/
  | archetype (ts : List T)
  /-- An entity is made in the archetype with this key. -/
  | spawnIn (key : UInt64) (bundle : Bundle T V)

namespace World

variable [DecidableEq T] [ComponentType T]

/-- The world after an event. -/
def next (w : World T V) : Event T V → World T V
  | .call c => (w.call c).2
  | .register t => { w with catalog := w.catalog.register t }
  | .node ts => { w with catalog := (w.catalog.ensureNode ts).2 }
  | .archetype ts => { w with catalog := (w.catalog.ensure ts).2 }
  | .spawnIn key bundle =>
    match w.catalog.archetype? key with
    | none => w
    | some a => (w.spawnIn a bundle).2

/-- The world after several events. -/
def after (w : World T V) (events : List (Event T V)) : World T V := events.foldl next w

section calls

variable (w : World T V) (e : Entity) (t : T) (value : V)

@[simp] theorem call_create_world (bundle : Bundle T V) :
    (w.call (.create bundle)).2 = (w.spawn bundle).2 := by
  unfold call
  simp only
  split <;> simp [*]

@[simp] theorem call_createAs_world (stated : List T) (bundle : Bundle T V) :
    (w.call (.createAs stated bundle)).2 = (w.spawnStated stated bundle).2 := by
  unfold call
  simp only
  split <;> simp [*]

@[simp] theorem call_add_world : (w.call (.add e t value)).2 = (w.add e t value).2 := by
  unfold call
  simp only
  split <;> simp [*]

@[simp] theorem call_remove_world : (w.call (.remove e t)).2 = (w.remove e t).2 := by
  unfold call
  simp only
  split <;> simp [*]

end calls

/-! ### The invariant -/

section sound

variable {w : World T V}

theorem call_sound (h : w.Sound) (c : Call T V) : (w.call c).2.Sound := by
  cases c with
  | create bundle => simpa [spawn] using spawnStated_sound h bundle.types bundle
  | createAs stated bundle => simpa using spawnStated_sound h stated bundle
  | destroy e => exact destroy_sound h e
  | add e t value => simpa using add_sound h e t value
  | remove e t => simpa using remove_sound h e t
  | read e t => exact h
  | update e t f => exact update_sound h e t f
  | has e t => exact h
  | count => exact h
  | memory m => exact (h.withMemory_effect m).sound

theorem next_sound (h : w.Sound) (event : Event T V) : (w.next event).Sound := by
  cases event with
  | call c => exact call_sound h c
  | register t =>
    obtain ⟨hwf, hgrows⟩ := Catalog.register_wf h.catalog t
    exact (h.grow hwf h.store hgrows).sound
  | node ts =>
    obtain ⟨hwf, hgrows⟩ := Catalog.ensureNode_wf h.catalog ts
    have hstore := (Catalog.ensureNode_adds h.catalog.registry ts).store
    exact (h.grow hwf (hstore ▸ h.store) hgrows).sound
  | archetype ts => exact (ensure_effect h ts).sound
  | spawnIn key bundle =>
    unfold World.next
    simp only
    split
    · exact h
    · rename_i a ha
      obtain ⟨-, rfl, -⟩ := h.catalog.archetype_wf ha
      obtain ⟨answer, w', hspawn, hspawned, -⟩ := spawnIn_spawned h ha bundle
      rw [hspawn]
      exact hspawned.sound

theorem after_sound (h : w.Sound) (events : List (Event T V)) : (w.after events).Sound := by
  induction events generalizing w with
  | nil => exact h
  | cons event events ih => exact ih (next_sound h event)

/-- What every event keeps in a sound world, a history keeps. -/
theorem after_preserves {P : World T V → Prop}
    (hstep : ∀ w event, w.Sound → P w → P (w.next event)) (h : w.Sound) (hP : P w)
    (events : List (Event T V)) : P (w.after events) := by
  induction events generalizing w with
  | nil => exact hP
  | cons event events ih => exact ih (next_sound h event) (hstep w event h hP)

end sound

/-! ### Requests -/

/-- The component set whose archetype the event asks the catalog for. -/
def asks (w : World T V) : Event T V → Option (List T)
  | .archetype ts => some ts
  | .call (.create bundle) => some bundle.types
  | .call (.createAs stated _) => some stated
  | .call (.add e t _) =>
    match w.locate e with
    | .found a _ => if t ∈ a.types then none else some (a.types ++ [t])
    | _ => none
  | .call (.remove e t) =>
    match w.locate e with
    | .found a _ => if t ∈ a.types then some (a.types.filter (· ≠ t)) else none
    | _ => none
  | _ => none

/-- The catalog after the request of the event. -/
def requested (w : World T V) (event : Event T V) : Catalog T V :=
  match event with
  | .call (.memory m) => w.catalog.withMemory m
  | .register t => w.catalog.register t
  | .node ts => (w.catalog.ensureNode ts).2
  | event =>
    match w.asks event with
    | some ts => (w.catalog.ensure ts).2
    | none => w.catalog

section requests

variable {w : World T V}

theorem requested_of_asks {event : Event T V} {ts : List T} (hasks : w.asks event = some ts) :
    w.requested event = (w.catalog.ensure ts).2 := by
  unfold requested
  split
  · cases hasks
  · cases hasks
  · cases hasks
  · rw [hasks]

/-- An event that asks for no archetype adds at most types and nodes. -/
theorem requested_adds (h : w.Sound) {event : Event T V} (hasks : w.asks event = none) :
    w.catalog.Grows (w.requested event) ∧
      ∀ key, (w.requested event).archetype? key = w.catalog.archetype? key := by
  have hkeys := h.catalog.nodes.keys_nodup
  unfold requested
  split
  · rename_i m
    exact ⟨(h.catalog.withMemory m).2, fun _ => rfl⟩
  · rename_i t
    obtain ⟨hwf, hgrows⟩ := Catalog.register_wf h.catalog t
    exact ⟨hgrows, (Catalog.register_adds h.catalog t).archetype? hkeys hwf.nodes.keys_nodup⟩
  · rename_i ts
    obtain ⟨hwf, hgrows⟩ := Catalog.ensureNode_wf h.catalog ts
    exact ⟨hgrows,
      (Catalog.ensureNode_adds h.catalog.registry ts).archetype? hkeys hwf.nodes.keys_nodup⟩
  · rw [hasks]
    exact ⟨.refl _, fun _ => rfl⟩

/-- Where a remembered key leads, asking again leads as well. -/
theorem spawnStated_keeps (h : w.Sound) (stated : List T) (bundle : Bundle T V) :
    KeepsCatalog { w with catalog := (w.catalog.ensure stated).2 }
      (w.spawnStated stated bundle).2 := by
  unfold spawnStated archetypeOfBundle
  cases hcached : (w.bundles.lookup stated).bind w.catalog.archetype? with
  | some a =>
    obtain ⟨ha, hperm⟩ := archetype_of_remembered h hcached
    rw [Catalog.ensure_known h.catalog ha hperm]
    exact spawnIn_keeps w a bundle
  | none =>
    simp only
    cases w.catalog.ensure stated with
    | mk answer catalog =>
      cases answer with
      | error e => exact ⟨rfl, rfl⟩
      | ok a =>
        have hspawn := spawnIn_keeps
          { w with catalog, bundles := (stated, a.key) :: w.bundles } a bundle
        exact ⟨hspawn.catalog, hspawn.format⟩

theorem add_keeps (h : w.Sound) (e : Entity) (t : T) (value : V) :
    KeepsCatalog { w with catalog := w.requested (.call (.add e t value)) }
      (w.add e t value).2 := by
  rcases owned_or_not h e with ⟨he, a, values, hhas⟩ | hnot
  · obtain ⟨chunk, row, hseat⟩ := hhas
    have hhas : w.Has e.item a values := ⟨chunk, row, hseat⟩
    simp only [requested, asks, locate_of_seat h he hseat]
    by_cases ht : t ∈ a.types
    · obtain ⟨slot, old, hslot, -, hold, -⟩ := value_of_mem h hhas ht
      have hchange := changeAt_keeps w e a (w.idOf e) slot fun _ => value
      rw [changeAt_of_seat h hseat hold] at hchange
      simp only [ht, if_true]
      unfold add
      rw [access_of_seat h he hseat]
      · simp only [hslot, changeAt_of_seat h hseat hold]
        exact hchange.trans ⟨rfl, rfl⟩
      · simp only [hslot, changeAt_of_seat h hseat hold]
        intro heq
        cases heq
    · have hkeeps := gain_keeps w e a (w.idOf e) t value
      simp only [ht, if_false]
      rw [add_eq_gain h he hhas ht value]
      split
      all_goals
        rename_i hgain
        rw [hgain] at hkeeps
      · exact hkeeps
      · exact hkeeps.trans ⟨rfl, rfl⟩
  · rw [add_of_not_owns h hnot]
    simp only [requested, asks, locate_of_not_owns h hnot]
    exact ⟨rfl, rfl⟩

theorem remove_keeps (h : w.Sound) (e : Entity) (t : T) :
    KeepsCatalog { w with catalog := w.requested (.call (.remove e t)) } (w.remove e t).2 := by
  rcases owned_or_not h e with ⟨he, a, values, hhas⟩ | hnot
  · obtain ⟨chunk, row, hseat⟩ := hhas
    have hhas : w.Has e.item a values := ⟨chunk, row, hseat⟩
    simp only [requested, asks, locate_of_seat h he hseat]
    by_cases ht : t ∈ a.types
    · simp only [ht, if_true]
      rw [remove_eq_lose h he hhas ht]
      exact lose_keeps w e a (w.idOf e) t
    · rw [remove_of_absent h he hhas ht]
      simp only [ht, if_false]
      exact .refl w
  · rw [remove_of_not_owns h hnot]
    simp only [requested, asks, locate_of_not_owns h hnot]
    exact .refl w

/-- Apart from its request an event leaves the catalog as it is. -/
theorem next_keeps (h : w.Sound) (event : Event T V) :
    KeepsCatalog { w with catalog := w.requested event } (w.next event) := by
  cases event with
  | register t => exact .refl _
  | node ts => exact .refl _
  | archetype ts => exact .refl _
  | spawnIn key bundle =>
    unfold World.next
    simp only
    split
    · exact .refl w
    · exact spawnIn_keeps w _ bundle
  | call c =>
    cases c with
    | create bundle =>
      simpa [next, requested, asks, spawn] using spawnStated_keeps h bundle.types bundle
    | createAs stated bundle =>
      simpa [next, requested, asks] using spawnStated_keeps h stated bundle
    | destroy e => exact destroy_keeps w e
    | add e t value => simpa [next] using add_keeps h e t value
    | remove e t => simpa [next] using remove_keeps h e t
    | update e t f => exact update_keeps w e t f
    | read e t => exact .refl w
    | has e t => exact .refl w
    | count => exact .refl w
    | memory m => exact ⟨rfl, rfl⟩

/-- The archetypes after an event are those after its request. -/
theorem next_archetype? (h : w.Sound) (event : Event T V) (key : UInt64) :
    (w.next event).catalog.archetype? key = (w.requested event).archetype? key :=
  (next_keeps h event).archetype? key

theorem requested_grows (h : w.Sound) (event : Event T V) :
    w.catalog.Grows (w.requested event) := by
  cases hasks : w.asks event with
  | none => exact (requested_adds h hasks).1
  | some ts =>
    rw [requested_of_asks hasks]
    exact (Catalog.ensure_sound h.catalog h.store ts).2.2

/-- An archetype after an event was there before, or it is the answer to the request. -/
theorem archetype_of_next (h : w.Sound) {event : Event T V} {key : UInt64} {a : Archetype T}
    (ha : (w.next event).catalog.archetype? key = some a) :
    w.catalog.archetype? key = some a ∨ ∃ ts, w.asks event = some ts ∧
      (w.catalog.ensure ts).1 = .ok a ∧ ∃ store,
        w.store.newPartition a.types = (.ok a.partition, store) := by
  rw [next_archetype? h] at ha
  cases hasks : w.asks event with
  | none =>
    exact .inl (((requested_adds h hasks).2 key).symm.trans ha)
  | some ts =>
    rw [requested_of_asks hasks] at ha
    rcases Catalog.archetype_of_ensure h.catalog h.store ha with hold | ⟨hanswer, hnew⟩
    · exact .inl hold
    · exact .inr ⟨ts, rfl, hanswer, _, hnew⟩

/-- An archetype that was made stays. -/
theorem next_retains (h : w.Sound) (event : Event T V) {key : UInt64} {a : Archetype T}
    (ha : w.catalog.archetype? key = some a) : (w.next event).catalog.archetype? key = some a := by
  rw [next_archetype? h]
  exact (requested_grows h event).archetypes key a ha

theorem after_retains (h : w.Sound) (events : List (Event T V)) {key : UInt64} {a : Archetype T}
    (ha : w.catalog.archetype? key = some a) :
    (w.after events).catalog.archetype? key = some a :=
  after_preserves (P := fun w => w.catalog.archetype? key = some a)
    (fun _ event h ha => next_retains h event ha) h ha events

theorem next_format (h : w.Sound) (event : Event T V) :
    (w.next event).store.format = w.store.format :=
  (next_keeps h event).format.trans (requested_grows h event).store.format

end requests

end World

end ArchetypeStore

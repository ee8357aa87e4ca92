import ArchetypeStore.Proofs.World.History
import Mathlib.Data.Finset.Card

/-! # One archetype for each component set

  An archetype is asked for directly, for the bundle of a new entity, or for the set that
  an entity has after a component was added or removed. However the types are listed, a set
  is answered with one archetype, and with the same one for ever. Entities are put into the
  archetype of their set, and there are as many archetypes as sets were asked for.
-/

namespace ArchetypeStore

variable {T V : Type} [DecidableEq T] [ComponentType T]

namespace Catalog

/-! ### The archetype of a set -/

/-- However the types of the set are listed, a request is answered with the archetype and
changes nothing. -/
def Serves (c : Catalog T V) (set : Finset T) (a : Archetype T) : Prop :=
  ∀ ts : List T, ts.Nodup → ts.toFinset = set → c.ensure ts = (.ok a, c)

omit [ComponentType T] in
/-- The sets that have an archetype. -/
def sets (c : Catalog T V) : Finset (Finset T) :=
  (c.archetypes.map (·.types.toFinset)).toFinset

variable {c : Catalog T V}

section archetypes

variable (h : c.Wf) {a a' : Archetype T} (ha : c.archetype? a.key = some a)

include h ha

omit [DecidableEq T] in
theorem types_nodup : a.types.Nodup := (h.archetype_wf ha).1.types_nodup h.registry

theorem serves : c.Serves a.types.toFinset a := by
  intro ts hnodup hset
  apply ensure_known h ha
  exact List.perm_of_nodup_nodup_toFinset_eq (types_nodup h ha) hnodup hset.symm

/-- Archetypes are told apart by their sets. -/
theorem eq_iff_toFinset (ha' : c.archetype? a'.key = some a') :
    a = a' ↔ a.types.toFinset = a'.types.toFinset := by
  constructor
  · rintro rfl
    rfl
  · intro hset
    apply archetype_unique h ha ha'
    exact List.perm_of_nodup_nodup_toFinset_eq (types_nodup h ha) (types_nodup h ha') hset

/-- The columns are in the order of the indices of their types. -/
theorem index_types : a.types.map c.registry.index? = a.indices.map some := by
  have hlists := (h.archetype_wf ha).1.lists
  apply List.ext_getElem?
  intro i
  rw [List.getElem?_map, List.getElem?_map]
  cases hi : a.indices[i]? with
  | none =>
    rw [List.getElem?_eq_none_iff] at hi
    rw [List.getElem?_eq_none (hlists.length ▸ hi)]
    rfl
  | some index =>
    obtain ⟨t, ht, hindex⟩ := hlists.getElem? hi
    rw [ht, Option.map_some, h.registry.index?_eq_some_iff.mpr hindex]
    rfl

end archetypes

/-! ### The sets there are -/

theorem mem_sets (h : c.Wf) {set : Finset T} :
    set ∈ c.sets ↔ ∃ a, c.archetype? a.key = some a ∧ a.types.toFinset = set := by
  simp [sets, mem_archetypes h]

/-- There are as many archetypes as sets. -/
theorem length_archetypes (h : c.Wf) : c.archetypes.length = c.sets.card := by
  have hnodup : (c.archetypes.map (·.types.toFinset)).Nodup := by
    rw [List.nodup_iff_pairwise_ne, List.pairwise_map]
    refine (List.Pairwise.and_mem.mp (partitions_distinct h)).imp ?_
    rintro a a' ⟨ha, ha', hne⟩ hset
    rw [mem_archetypes h] at ha ha'
    exact hne (congrArg Archetype.partition ((eq_iff_toFinset h ha ha').mpr hset))
  rw [sets, List.toFinset_card_of_nodup hnodup, List.length_map]

end Catalog

namespace World

/-! ### Sets that were asked for -/

/-- The set that the event asks for, if the answer is an archetype. -/
def granted (w : World T V) (event : Event T V) : Option (Finset T) :=
  (w.asks event).bind fun ts =>
    match (w.catalog.ensure ts).1 with
    | .ok _ => some ts.toFinset
    | .error _ => none

/-- The sets that the events ask for and get, one event after the other. -/
def materialized (w : World T V) : List (Event T V) → List (Finset T)
  | [] => []
  | event :: events => (w.granted event).toList ++ (w.next event).materialized events

variable {w w' : World T V}

/-- An event adds the set that it asks for, unless that is refused. -/
theorem mem_sets_next (h : w.Sound) (event : Event T V) {set : Finset T} :
    set ∈ (w.next event).catalog.sets ↔ set ∈ w.catalog.sets ∨ w.granted event = some set := by
  have h' := next_sound h event
  rw [Catalog.mem_sets h.catalog, Catalog.mem_sets h'.catalog, granted, Option.bind_eq_some_iff]
  constructor
  · rintro ⟨a, ha, rfl⟩
    rcases archetype_of_next h ha with hold | ⟨ts, hasks, hanswer, -⟩
    · exact .inl ⟨a, hold, rfl⟩
    · obtain ⟨-, -, -, -, hperm⟩ :=
        Catalog.ensure_ok h.catalog h.store (Prod.ext hanswer rfl : _ = (Except.ok a, _))
      refine .inr ⟨ts, hasks, ?_⟩
      rw [hanswer]
      exact congrArg some (List.toFinset_eq_of_perm _ _ hperm).symm
  · rintro (⟨a, ha, rfl⟩ | ⟨ts, hasks, hgranted⟩)
    · exact ⟨a, next_retains h event ha, rfl⟩
    · cases hanswer : (w.catalog.ensure ts).1 with
      | error e =>
        rw [hanswer] at hgranted
        cases hgranted
      | ok a =>
        rw [hanswer] at hgranted
        cases hgranted
        obtain ⟨-, -, -, ha, hperm⟩ :=
          Catalog.ensure_ok h.catalog h.store (Prod.ext hanswer rfl : _ = (Except.ok a, _))
        refine ⟨a, ?_, List.toFinset_eq_of_perm _ _ hperm⟩
        rw [next_archetype? h, requested_of_asks hasks]
        exact ha

theorem mem_sets_after (h : w.Sound) (events : List (Event T V)) {set : Finset T} :
    set ∈ (w.after events).catalog.sets ↔
      set ∈ w.catalog.sets ∨ set ∈ w.materialized events := by
  induction events generalizing w with
  | nil => simp [after, materialized]
  | cons event events ih =>
    have hrest := ih (next_sound h event)
    rw [mem_sets_next h, or_assoc] at hrest
    simpa [after, materialized] using hrest

/-! ### Where entities are put -/

/-- The home of an entity is the archetype of its set. -/
def HomeIs (w : World T V) (e : Entity) (set : Finset T) : Prop :=
  ∃ a, w.home? e = some a ∧ a.types.toFinset = set ∧ w.catalog.Serves set a

theorem homeIs_of_has (h : w.Sound) {e : Entity} {a : Archetype T} {values : List V}
    (hhas : w.Has e.item a values) {set : Finset T} (hset : a.types.toFinset = set) :
    w.HomeIs e set := by
  have ha := (h.archetype_of_has hhas).1
  obtain ⟨chunk, row, hseat⟩ := hhas
  exact ⟨a, hseat.home, hset, hset ▸ Catalog.serves h.catalog ha⟩

theorem spawn_home (h : w.Sound) {bundle : Bundle T V} {e : Entity}
    (hspawn : w.spawn bundle = (.ok e, w')) : w'.HomeIs e bundle.types.toFinset := by
  obtain ⟨answer, w₁, hspawn', hspawned⟩ := spawn_spawned h bundle
  rw [hspawn] at hspawn'
  cases hspawn'
  cases hspawned with
  | made made =>
    obtain ⟨a, values, hhas, hperm⟩ := made.has
    have htypes := Bundle.types_perm hperm
    rw [Bundle.types_zip (made.sound.archetype_of_has hhas).2.2.2.2] at htypes
    have hhas' : w'.Has (Entity.mk w.number w.store.ids.size).item a values := hhas
    exact homeIs_of_has made.sound hhas' (List.toFinset_eq_of_perm _ _ htypes)

/-- Who has moved is in the archetype of the components it is to have. -/
theorem Migrated.home {e : Entity} {a : Archetype T} {ts : List T} {before after : Bundle T V}
    (hmigrated : w.Migrated e a ts before after (.ok ()) w') :
    w'.HomeIs e after.types.toFinset := by
  cases hmigrated with
  | moved effect has perm =>
    have htypes := Bundle.types_perm perm
    rw [Bundle.types_zip (effect.sound.archetype_of_has has).2.2.2.2] at htypes
    exact homeIs_of_has effect.sound has (List.toFinset_eq_of_perm _ _ htypes)

theorem add_home (h : w.Sound) {e : Entity} {t : T} {value : V}
    (hadd : w.add e t value = (.ok (), w')) :
    ∃ set, w.HomeIs e set ∧ w'.HomeIs e (insert t set) := by
  rcases owned_or_not h e with ⟨he, a, values, hhas⟩ | hnot
  · refine ⟨a.types.toFinset, homeIs_of_has h hhas rfl, ?_⟩
    by_cases ht : t ∈ a.types
    · obtain ⟨slot, old, w₁, hadd', -, -, heffect, hhas'⟩ := add_of_mem h he hhas ht value
      rw [hadd] at hadd'
      cases hadd'
      rw [Finset.insert_eq_of_mem (List.mem_toFinset.mpr ht)]
      exact homeIs_of_has heffect.sound hhas' rfl
    · rcases add_of_absent h he hhas ht value with ⟨w₁, hadd', hmigrated⟩ |
        ⟨error, w₁, hadd', -⟩
      · rw [hadd] at hadd'
        cases hadd'
        have hzip := Bundle.types_zip_append (h.archetype_of_has hhas).2.2.2.2 t value
        have htypes : (Bundle.types (a.types.zip values ++ [(t, value)])).toFinset =
            insert t a.types.toFinset := by
          rw [hzip]
          ext t'
          simp
        exact htypes ▸ hmigrated.home
      · rw [hadd] at hadd'
        cases hadd'
  · rw [add_of_not_owns h hnot] at hadd
    cases hadd

theorem remove_home (h : w.Sound) {e : Entity} {t : T} {value : V}
    (hremove : w.remove e t = (.ok value, w')) :
    ∃ set, t ∈ set ∧ w.HomeIs e set ∧ w'.HomeIs e (set.erase t) := by
  rcases owned_or_not h e with ⟨he, a, values, hhas⟩ | hnot
  · by_cases ht : t ∈ a.types
    · refine ⟨a.types.toFinset, List.mem_toFinset.mpr ht, homeIs_of_has h hhas rfl, ?_⟩
      obtain ⟨-, old, -, -, -, hlookup⟩ := value_of_mem h hhas ht
      obtain ⟨result, w₁, hmigrated, hremove'⟩ := remove_of_mem h he hhas hlookup
      rw [hremove] at hremove'
      cases result with
      | error error => cases hremove'
      | ok =>
        cases hremove'
        have hzip := Bundle.types_zip (h.archetype_of_has hhas).2.2.2.2
        have hnodup := types_nodup_of_has h hhas
        have htypes : (Bundle.types ((a.types.zip values).eraseP (·.1 == t))).toFinset =
            a.types.toFinset.erase t := by
          rw [Bundle.types_eraseP (hzip.symm ▸ hnodup), hzip]
          ext t'
          simp [and_comm]
        exact htypes ▸ hmigrated.home
    · rw [remove_of_absent h he hhas ht] at hremove
      cases hremove
  · rw [remove_of_not_owns h hnot] at hremove
    cases hremove

/-! ### One archetype for each set -/

/-- The archetypes of a world belong one to one to the sets that were asked for. -/
structure OnePerSet (w : World T V) (asked : List (Finset T)) : Prop where
  /-- Two requests get the same archetype when they list the same set, whatever happens
  between them. -/
  same : ∀ ts a, (w.catalog.ensure ts).1 = .ok a → ∀ events ts' a',
    (((w.next (.archetype ts)).after events).catalog.ensure ts').1 = .ok a' →
      (a = a' ↔ ts.toFinset = ts'.toFinset)
  /-- A request that succeeded once will succeed for ever. -/
  kept : ∀ ts a, (w.catalog.ensure ts).1 = .ok a → ∀ events,
    ((w.next (.archetype ts)).after events).catalog.Serves ts.toFinset a
  repeated : ∀ ts, ¬ ts.Nodup → ∃ e, (w.catalog.ensure ts).1 = .error e
  /-- The archetype has the types asked for, in the order of their indices. -/
  ordered : ∀ ts a, (w.catalog.ensure ts).1 = .ok a →
    a.types.Perm ts ∧ a.indices.Pairwise (· < ·) ∧
      a.types.map (w.next (.archetype ts)).registry.index? = a.indices.map some
  spawned : ∀ bundle e w', w.spawn bundle = (.ok e, w') → w'.HomeIs e bundle.types.toFinset
  added : ∀ e t value w', w.add e t value = (.ok (), w') →
    ∃ set, w.HomeIs e set ∧ w'.HomeIs e (insert t set)
  removed : ∀ e t value w', w.remove e t = (.ok value, w') →
    ∃ set, t ∈ set ∧ w.HomeIs e set ∧ w'.HomeIs e (set.erase t)
  count : w.archetypeCount = asked.toFinset.card

/-- What was answered once is there after all later events. -/
theorem after_ensure (h : w.Sound) {ts : List T} {a : Archetype T}
    (hensure : (w.catalog.ensure ts).1 = .ok a) (events : List (Event T V)) :
    ((w.next (.archetype ts)).after events).Sound ∧
      ((w.next (.archetype ts)).after events).catalog.archetype? a.key = some a ∧
        a.types.Perm ts := by
  have hnext := next_sound h (.archetype ts)
  obtain ⟨-, -, -, ha, hperm⟩ :=
    Catalog.ensure_ok h.catalog h.store (Prod.ext hensure rfl : _ = (Except.ok a, _))
  exact ⟨after_sound hnext events, after_retains hnext events ha, hperm⟩

theorem Sound.onePerSet (h : w.Sound) {asked : List (Finset T)}
    (hasked : ∀ set, set ∈ w.catalog.sets ↔ set ∈ asked) : w.OnePerSet asked where
  same ts a hensure events ts' a' hensure' := by
    obtain ⟨h', ha, hperm⟩ := after_ensure h hensure events
    -- Both archetypes are in the catalog after the second request.
    obtain ⟨hlast, ha', hperm'⟩ := after_ensure h' hensure' []
    have ha := next_retains h' (.archetype ts') ha
    rw [← List.toFinset_eq_of_perm _ _ hperm, ← List.toFinset_eq_of_perm _ _ hperm']
    exact Catalog.eq_iff_toFinset hlast.catalog ha ha'
  kept ts a hensure events := by
    obtain ⟨h', ha, hperm⟩ := after_ensure h hensure events
    rw [← List.toFinset_eq_of_perm _ _ hperm]
    exact Catalog.serves h'.catalog ha
  repeated ts hrepeated := Catalog.ensure_of_repeated h.catalog h.store hrepeated
  ordered ts a hensure := by
    obtain ⟨h', ha, hperm⟩ := after_ensure h hensure []
    exact ⟨hperm, (h'.catalog.archetype_wf ha).1.ascending, Catalog.index_types h'.catalog ha⟩
  spawned bundle e w' hspawn := spawn_home h hspawn
  added e t value w' hadd := add_home h hadd
  removed e t value w' hremove := remove_home h hremove
  count := by
    have hsets : w.catalog.sets = asked.toFinset := by
      ext set
      rw [hasked, List.mem_toFinset]
    rw [archetypeCount, Catalog.length_archetypes h.catalog, hsets]

/-- After every history of a world there is one archetype for each set that was asked for. -/
theorem one_per_set {number : Nat} {settings : Settings}
    (made : World.create number settings = .ok w) (events : List (Event T V)) :
    (w.after events).OnePerSet (w.materialized events) := by
  have h := (create_sound made).1
  refine (after_sound h events).onePerSet fun set => ?_
  rw [mem_sets_after h, or_iff_right]
  rw [Catalog.mem_sets h.catalog]
  rintro ⟨a, ha, -⟩
  rw [create_archetype? made] at ha
  cases ha

/-- One type has its index before. A set is asked for in both orders, with a list that is
refused in between, and two entities come to it by other ways. -/
def regrouped : List (Event Sample Nat) :=
  [.register .position, .archetype [.velocity, .position], .archetype [.position, .position],
    .call (.create [(.position, 1), (.velocity, 2)]), .call (.create [(.velocity, 3)]),
    .call (.add ⟨0, 1⟩ .position 4), .call (.remove ⟨0, 0⟩ .position)]

/-- The keys of the archetypes that each order leads to, that is remembered for a bundle, and
that the second entity has come to by a move. -/
def routes (w : World Sample Nat) : List (Option UInt64) :=
  [(w.catalog.ensure [.position, .velocity]).1.toOption.map (·.key),
    (w.catalog.ensure [.velocity, .position]).1.toOption.map (·.key),
    w.bundles.lookup [.position, .velocity], (w.home? ⟨0, 1⟩).map (·.key)]

theorem routes_regrouped : ∃ w : World Sample Nat, World.create 0 .default = .ok w ∧
    (w.after regrouped).routes = List.replicate 4 (some 9223372036854775841) :=
  exists_of_map (by decide +kernel)

/-- All of them lead to one archetype. -/
theorem one_per_set_regrouped : ∃ w : World Sample Nat, World.create 0 .default = .ok w ∧
    (w.after regrouped).OnePerSet (w.materialized regrouped) ∧
      (w.after regrouped).routes = List.replicate 4 (some 9223372036854775841) := by
  obtain ⟨w, hcreate, hroutes⟩ := routes_regrouped
  exact ⟨w, hcreate, one_per_set hcreate regrouped, hroutes⟩

end World

end ArchetypeStore

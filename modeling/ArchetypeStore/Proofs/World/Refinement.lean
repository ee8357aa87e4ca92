import ArchetypeStore.Proofs.Sample
import ArchetypeStore.Proofs.World.Census
import ArchetypeStore.Proofs.World.Runs

/-! # A world is a map from handles to components

  Seen through its calls, a world is a map that gives each handle that is alive a finite
  map from component types to values. Archetypes, rows and ids do not show in any answer:
  every run of a world is a run of the map. The map refuses a call only where the world has a
  cause to refuse it, and then stays as it is: a type is listed twice, or numbers or memory
  are used up before any row is touched. One refusal is not so mild. An entity that has left
  its row and finds no room in the new archetype is destroyed.
-/

namespace ArchetypeStore

variable {T V : Type}

/-! ### Calls -/

/-- A call of a world, or a change of the memory that later calls find. -/
inductive Call (T V : Type) where
  | create (bundle : Bundle T V)
  /-- The type of the bundle states other component types, or the same ones. -/
  | createAs (stated : List T) (bundle : Bundle T V)
  | destroy (e : Entity)
  | add (e : Entity) (t : T) (value : V)
  | remove (e : Entity) (t : T)
  | read (e : Entity) (t : T)
  | update (e : Entity) (t : T) (f : V → V)
  | has (e : Entity) (t : T)
  | count
  | memory (m : Memory)

/-- What a call answers. -/
inductive Answer (V : Type) where
  | made (e : Entity)
  | done
  | verdict (b : Bool)
  | value (v : V)
  | found (v : Option V)
  | number (n : Nat)
  | refused (e : StoreError)
  deriving DecidableEq

/-- The handle of the call, if it has one, is of the world with this number. -/
def Call.IsOf (number : Nat) : Call T V → Prop
  | .create _ | .createAs _ _ | .count | .memory _ => True
  | .destroy e | .add e _ _ | .remove e _ | .read e _ | .update e _ _ | .has e _ =>
    e.world = number

namespace World

variable [DecidableEq T] [ComponentType T]

/-- Carry out a call. -/
def call (w : World T V) : Call T V → Answer V × World T V
  | .create bundle =>
    match w.spawn bundle with
    | (.ok e, w) => (.made e, w)
    | (.error error, w) => (.refused error, w)
  | .createAs stated bundle =>
    match w.spawnStated stated bundle with
    | (.ok e, w) => (.made e, w)
    | (.error error, w) => (.refused error, w)
  | .destroy e => (.verdict (w.destroy e).1, (w.destroy e).2)
  | .add e t value =>
    match w.add e t value with
    | (.ok (), w) => (.done, w)
    | (.error error, w) => (.refused error, w)
  | .remove e t =>
    match w.remove e t with
    | (.ok value, w) => (.value value, w)
    | (.error error, w) => (.refused error, w)
  | .read e t => (.found (w.read? e t), w)
  | .update e t f => (.found (w.update e t f).1, (w.update e t f).2)
  | .has e t => (.verdict (w.has e t), w)
  | .count => (.number w.entityCount, w)
  | .memory m => (.done, w.withMemory m)

/-- Carry out calls in turn. -/
def run (w : World T V) : List (Call T V) → List (Answer V) × World T V
  | [] => ([], w)
  | c :: calls =>
    let (answer, w) := w.call c
    let (answers, w) := w.run calls
    (answer :: answers, w)

end World

/-! ### The map -/

/-- A map from handles to components. -/
structure EntityMap (T V : Type) where
  /-- The handles that were given out, in order. -/
  issued : List Entity
  /-- The components of each handle that is alive. -/
  contents : Entity → Option (Bundle T V)

namespace EntityMap

/-- The map without handles. -/
def empty : EntityMap T V := ⟨[], fun _ => none⟩

/-- Change what one handle has. -/
def set (m : EntityMap T V) (e : Entity) (b : Option (Bundle T V)) : EntityMap T V :=
  { m with contents := fun e' => if e' = e then b else m.contents e' }

/-- Give out a handle. -/
def insert (m : EntityMap T V) (e : Entity) (b : Bundle T V) : EntityMap T V :=
  { m.set e (some b) with issued := m.issued ++ [e] }

/-- The handles that are alive. -/
def live (m : EntityMap T V) : List Entity := m.issued.filter fun e => (m.contents e).isSome

variable [DecidableEq T]

/-- The value of one type. -/
def get? (m : EntityMap T V) (e : Entity) (t : T) : Option V :=
  (m.contents e).bind (·.lookup t)

end EntityMap

variable [DecidableEq T] [ComponentType T]

/-- What the map may answer to a call, and what it is then. Where the call is refused, the
world has the cause. -/
inductive EntityMap.Step (w : World T V) (m : EntityMap T V) :
    Call T V → Answer V → EntityMap T V → Prop where
  | create {e : Entity} {bundle : Bundle T V} (fresh : e ∉ m.issued)
      (once : bundle.types.Nodup) : Step w m (.create bundle) (.made e) (m.insert e bundle)
  | createRefused {bundle : Bundle T V} {error : StoreError}
      (why : TypeRegistry.RefusesSet bundle.types error)
      (cause : w.RefusesBundle bundle.types bundle error) :
      Step w m (.create bundle) (.refused error) m
  | createAs {e : Entity} {stated : List T} {bundle : Bundle T V} (fresh : e ∉ m.issued)
      (once : bundle.types.Nodup) (fits : bundle.types.Perm stated) :
      Step w m (.createAs stated bundle) (.made e) (m.insert e bundle)
  | createAsRefused {stated : List T} {bundle : Bundle T V} {error : StoreError}
      (cause : w.RefusesBundle stated bundle error) :
      Step w m (.createAs stated bundle) (.refused error) m
  | destroy {e : Entity} {b : Bundle T V} (alive : m.contents e = some b) :
      Step w m (.destroy e) (.verdict true) (m.set e none)
  /-- There is no memory for the slot to be free in. -/
  | destroyRefused {e : Entity} {b : Bundle T V} {a : Archetype T} {values : List V}
      {error : StoreError} (alive : m.contents e = some b) (home : w.Has e.item a values)
      (cause : w.store.LacksRoom a.partition error) :
      Step w m (.destroy e) (.verdict false) m
  | destroyDead {e : Entity} (dead : m.contents e = none) :
      Step w m (.destroy e) (.verdict false) m
  | add {e : Entity} {b : Bundle T V} {t : T} {value : V} (alive : m.contents e = some b) :
      Step w m (.add e t value) .done (m.set e (some (b.put t value)))
  /-- The move is refused before the entity leaves its row. -/
  | addRefused {e : Entity} {b : Bundle T V} {t : T} {value : V} {error : StoreError}
      {a : Archetype T} {values : List V} (alive : m.contents e = some b) (absent : t ∉ b.types)
      (why : error.StopsGrowth) (home : w.Has e.item a values)
      (cause : w.HaltsMove a (a.types ++ [t]) error) :
      Step w m (.add e t value) (.refused error) m
  /-- The entity has left its row, and the new archetype has no room for it. -/
  | addLost {e : Entity} {b : Bundle T V} {t : T} {value : V} {error : StoreError}
      {a : Archetype T} {values : List V} (alive : m.contents e = some b) (absent : t ∉ b.types)
      (why : error.StopsGrowth) (home : w.Has e.item a values)
      (cause : w.StrandsMove e a (a.types ++ [t]) error) :
      Step w m (.add e t value) (.refused error) (m.set e none)
  | addDead {e : Entity} {t : T} {value : V} (dead : m.contents e = none) :
      Step w m (.add e t value) (.refused .entityNotFound) m
  | remove {e : Entity} {b : Bundle T V} {t : T} {value : V} (alive : m.contents e = some b)
      (present : b.lookup t = some value) :
      Step w m (.remove e t) (.value value) (m.set e (some (b.without t)))
  /-- The move is refused before the entity leaves its row. -/
  | removeRefused {e : Entity} {b : Bundle T V} {t : T} {value : V} {error : StoreError}
      {a : Archetype T} {values : List V} (alive : m.contents e = some b)
      (present : b.lookup t = some value) (why : error.StopsGrowth)
      (home : w.Has e.item a values)
      (cause : w.HaltsMove a (a.types.filter (· ≠ t)) error) :
      Step w m (.remove e t) (.refused error) m
  /-- The entity has left its row, and the new archetype has no room for it. -/
  | removeLost {e : Entity} {b : Bundle T V} {t : T} {value : V} {error : StoreError}
      {a : Archetype T} {values : List V} (alive : m.contents e = some b)
      (present : b.lookup t = some value) (why : error.StopsGrowth)
      (home : w.Has e.item a values)
      (cause : w.StrandsMove e a (a.types.filter (· ≠ t)) error) :
      Step w m (.remove e t) (.refused error) (m.set e none)
  | removeAbsent {e : Entity} {b : Bundle T V} {t : T} (alive : m.contents e = some b)
      (absent : t ∉ b.types) :
      Step w m (.remove e t) (.refused (.componentNotFound (ComponentType.name t))) m
  | removeDead {e : Entity} {t : T} (dead : m.contents e = none) :
      Step w m (.remove e t) (.refused .entityNotFound) m
  | read {e : Entity} {t : T} : Step w m (.read e t) (.found (m.get? e t)) m
  | update {e : Entity} {b : Bundle T V} {t : T} {f : V → V} {value : V}
      (alive : m.contents e = some b) (present : b.lookup t = some value) :
      Step w m (.update e t f) (.found (some value)) (m.set e (some (b.put t (f value))))
  | updateMissed {e : Entity} {t : T} {f : V → V} (missed : m.get? e t = none) :
      Step w m (.update e t f) (.found none) m
  | has {e : Entity} {t : T} : Step w m (.has e t) (.verdict (m.get? e t).isSome) m
  | count : Step w m .count (.number m.live.length) m
  | memory {memory : Memory} : Step w m (.memory memory) .done m

/-- A run of the map: it answers each call in turn, while the world goes on with the calls as
well. -/
inductive EntityMap.Trace : World T V → EntityMap T V → List (Call T V) → List (Answer V) →
    EntityMap T V → Prop where
  | nil {w : World T V} {m : EntityMap T V} : Trace w m [] [] m
  | cons {w : World T V} {m m' m'' : EntityMap T V} {c : Call T V} {answer : Answer V}
      {calls : List (Call T V)} {answers : List (Answer V)} (step : m.Step w c answer m')
      (rest : Trace (w.call c).2 m' calls answers m'') :
      Trace w m (c :: calls) (answer :: answers) m''

namespace World

/-- The map is what the world holds. -/
structure Represents (w : World T V) (m : EntityMap T V) : Prop where
  issued : m.issued = (List.range w.store.ids.size).map (Entity.mk w.number)
  alive : ∀ (e : Entity) a values, e.world = w.number → w.Has e.item a values →
    ∃ b, m.contents e = some b ∧ (a.types.zip values).Perm b
  dead : ∀ e, ¬ w.Owns e → m.contents e = none

/-! ### What a move does to the map -/

namespace Represents

variable {w w' : World T V} {m : EntityMap T V}

omit [DecidableEq T] [ComponentType T] in
/-- A handle of another item is another handle. -/
theorem item_ne {e e' : Entity} (he : e.world = e'.world) (hne : e ≠ e') : e.item ≠ e'.item := by
  intro hitem
  apply hne
  cases e
  cases e'
  cases he
  cases hitem
  rfl

/-! Handles that were not touched are represented as before. -/

section others

variable {touched : List Nat} (hrep : w.Represents m) (hkeeps : w.Keeps w' touched)
  (hnumber : w'.number = w.number) {e : Entity} (hitem : e.item ∉ touched)

include hrep hkeeps hnumber hitem

omit [DecidableEq T] [ComponentType T] in
theorem alive_of_keeps {a : Archetype T} {values : List V} (he : e.world = w'.number)
    (hhas : w'.Has e.item a values) :
    ∃ b, m.contents e = some b ∧ (a.types.zip values).Perm b :=
  hrep.alive e a values (he.trans hnumber) ((hkeeps e.item hitem a values).mpr hhas)

omit [DecidableEq T] in
theorem dead_of_keeps (h : w.Sound) (h' : w'.Sound) (hdead : ¬ w'.Owns e) :
    m.contents e = none := by
  refine hrep.dead e fun howns => hdead ⟨howns.1.trans hnumber.symm, ?_⟩
  obtain ⟨a, values, hhas⟩ := (lives_iff h).mp howns.2
  exact (h'.lives_of_has ((hkeeps e.item hitem a values).mp hhas)).1

end others

omit [DecidableEq T] in
theorem unchanged (hrep : w.Represents m) (h : w.Sound) {gone : List V}
    (heffect : w.Effect w' [] [] gone) : w'.Represents m := by
  refine ⟨?_, fun e a values => ?_, fun e => ?_⟩
  · rw [heffect.items, heffect.number]
    exact hrep.issued
  · exact hrep.alive_of_keeps heffect.keeps heffect.number List.not_mem_nil
  · exact hrep.dead_of_keeps heffect.keeps heffect.number List.not_mem_nil h heffect.sound

omit [DecidableEq T] in
/-- One handle is given what its entity has now. -/
theorem touched (hrep : w.Represents m) (h : w.Sound) {e : Entity} (he : e.world = w.number)
    {gone : List V} (heffect : w.Effect w' [] [e.item] gone) {now : Option (Bundle T V)}
    (halive : ∀ a values, w'.Has e.item a values →
      ∃ b, now = some b ∧ (a.types.zip values).Perm b)
    (hdead : ¬ w'.Lives e.item → now = none) : w'.Represents (m.set e now) := by
  refine ⟨?_, fun e' a' values' he' hhas' => ?_, fun e' hdead' => ?_⟩
  · rw [heffect.items, heffect.number]
    exact hrep.issued
  · by_cases heq : e' = e
    · subst heq
      obtain ⟨b, hnow, hperm⟩ := halive a' values' hhas'
      exact ⟨b, (if_pos rfl).trans hnow, hperm⟩
    · have hitem : e'.item ∉ [e.item] := by
        rw [List.mem_singleton]
        exact item_ne ((he'.trans heffect.number).trans he.symm) heq
      obtain ⟨b, hb, hperm⟩ :=
        hrep.alive_of_keeps heffect.keeps heffect.number hitem he' hhas'
      exact ⟨b, (if_neg heq).trans hb, hperm⟩
  · by_cases heq : e' = e
    · subst heq
      exact (if_pos rfl).trans (hdead fun hlives => hdead' ⟨he.trans heffect.number.symm, hlives⟩)
    · refine (if_neg heq).trans ?_
      -- A handle of another world is dead in both.
      by_cases hworld : e'.world = w.number
      · have hitem : e'.item ∉ [e.item] := by
          rw [List.mem_singleton]
          exact item_ne (hworld.trans he.symm) heq
        exact hrep.dead_of_keeps heffect.keeps heffect.number hitem h heffect.sound hdead'
      · exact hrep.dead e' fun howns => hworld howns.1

omit [DecidableEq T] in
/-- One entity has something else now. -/
theorem changed (hrep : w.Represents m) (h : w.Sound) {e : Entity} (he : e.world = w.number)
    {gone : List V} (heffect : w.Effect w' [] [e.item] gone) {a : Archetype T}
    {values : List V} (hhas : w'.Has e.item a values) {b : Bundle T V}
    (hperm : (a.types.zip values).Perm b) : w'.Represents (m.set e (some b)) := by
  refine hrep.touched h he heffect (fun a' values' hhas' => ?_) fun hdead => ?_
  · obtain ⟨rfl, rfl⟩ := heffect.sound.has_unique hhas hhas'
    exact ⟨b, rfl, hperm⟩
  · exact absurd (heffect.sound.lives_of_has hhas).1 hdead

omit [DecidableEq T] in
/-- One entity is destroyed. -/
theorem destroyed (hrep : w.Represents m) (h : w.Sound) {e : Entity} (he : e.world = w.number)
    {gone : List V} (heffect : w.Effect w' [] [e.item] gone) (hdead : ¬ w'.Lives e.item) :
    w'.Represents (m.set e none) := by
  refine hrep.touched h he heffect (fun a' values' hhas' => ?_) fun _ => rfl
  exact absurd (heffect.sound.lives_of_has hhas').1 hdead

omit [DecidableEq T] in
/-- One entity is made. -/
theorem made (hrep : w.Represents m) (h : w.Sound) {bundle : Bundle T V}
    (hmade : w.Made w' bundle) :
    (⟨w.number, w.store.ids.size⟩ : Entity) ∉ m.issued ∧ bundle.types.Nodup ∧
      w'.Represents (m.insert ⟨w.number, w.store.ids.size⟩ bundle) := by
  obtain ⟨a, values, hhas, hperm⟩ := hmade.has
  have hother : ∀ e : Entity, e.world = w.number → e ≠ ⟨w.number, w.store.ids.size⟩ →
      e.item ∉ [w.store.ids.size] := by
    intro e he hne
    rw [List.mem_singleton]
    exact item_ne he hne
  refine ⟨?_, ?_, ?_, fun e a' values' he hhas' => ?_, fun e hdead => ?_⟩
  · -- Only smaller items were issued.
    rw [hrep.issued]
    intro hmem
    obtain ⟨item, hitem, heq⟩ := List.mem_map.mp hmem
    cases heq
    exact absurd (List.mem_range.mp hitem) (Nat.lt_irrefl _)
  · refine (Bundle.types_perm hperm).nodup ?_
    rw [Bundle.types_zip (hmade.sound.archetype_of_has hhas).2.2.2.2]
    exact types_nodup_of_has hmade.sound hhas
  · rw [hmade.items, List.range_succ, List.map_append, hmade.number]
    exact congrArg (· ++ [_]) hrep.issued
  · by_cases heq : e = ⟨w.number, w.store.ids.size⟩
    · subst heq
      obtain ⟨rfl, rfl⟩ := hmade.sound.has_unique hhas hhas'
      exact ⟨bundle, if_pos rfl, hperm⟩
    · obtain ⟨b, hb, hperm'⟩ := hrep.alive_of_keeps hmade.keeps hmade.number
        (hother e (he.trans hmade.number) heq) he hhas'
      exact ⟨b, (if_neg heq).trans hb, hperm'⟩
  · have hne : e ≠ ⟨w.number, w.store.ids.size⟩ := by
      rintro rfl
      exact hdead ⟨hmade.number.symm, (hmade.sound.lives_of_has hhas).1⟩
    refine (if_neg hne).trans ?_
    by_cases hworld : e.world = w.number
    · exact hrep.dead_of_keeps hmade.keeps hmade.number (hother e hworld hne) h hmade.sound hdead
    · exact hrep.dead e fun howns => hworld howns.1

end Represents

/-! ### Calls are steps of the map -/

/-- The call is a step of the map, and leads to a world that the map represents again. -/
def Follows (w : World T V) (m : EntityMap T V) (c : Call T V) : Prop :=
  ∃ m', m.Step w c (w.call c).1 m' ∧ (w.call c).2.Sound ∧ (w.call c).2.number = w.number ∧
    (w.call c).2.Represents m'

theorem follows_of {w w' : World T V} {m m' : EntityMap T V} {c : Call T V}
    {answer : Answer V} (hcall : w.call c = (answer, w')) (hstep : m.Step w c answer m')
    (hsound : w'.Sound) (hnumber : w'.number = w.number) (hrep : w'.Represents m') :
    w.Follows m c := by
  unfold Follows
  rw [hcall]
  exact ⟨m', hstep, hsound, hnumber, hrep⟩

section follows

variable {w : World T V} {m : EntityMap T V} (h : w.Sound) (hrep : w.Represents m)

include h hrep

omit [DecidableEq T] in
/-- A handle of the world is alive in the map, with the components of its entity, or it is
dead in both. -/
theorem alive_or_dead {e : Entity} (he : e.world = w.number) :
    (∃ a values b, w.Has e.item a values ∧ m.contents e = some b ∧
        (a.types.zip values).Perm b) ∨ ¬ w.Owns e ∧ m.contents e = none := by
  by_cases hlives : w.Lives e.item
  · obtain ⟨a, values, hhas⟩ := (lives_iff h).mp hlives
    obtain ⟨b, hb, hperm⟩ := hrep.alive e a values he hhas
    exact .inl ⟨a, values, b, hhas, hb, hperm⟩
  · have hnot : ¬ w.Owns e := fun howns => hlives howns.2
    exact .inr ⟨hnot, hrep.dead e hnot⟩

omit h hrep in
/-- What the two sides list and find is the same. -/
theorem agree {item : Nat} {a : Archetype T} {values : List V} (h : w.Sound)
    (hhas : w.Has item a values) {b : Bundle T V} (hperm : (a.types.zip values).Perm b) :
    (Bundle.types (a.types.zip values)).Nodup ∧ (∀ t, t ∈ b.types ↔ t ∈ a.types) ∧
      ∀ t, (a.types.zip values).lookup t = b.lookup t := by
  have htypes : Bundle.types (a.types.zip values) = a.types :=
    Bundle.types_zip (h.archetype_of_has hhas).2.2.2.2
  have hnodup : (Bundle.types (a.types.zip values)).Nodup := by
    rw [htypes]
    exact types_nodup_of_has h hhas
  refine ⟨hnodup, fun t => ?_, Bundle.lookup_of_perm hnodup hperm⟩
  rw [← (Bundle.types_perm hperm).mem_iff, htypes]

theorem create_follows (bundle : Bundle T V) : w.Follows m (.create bundle) := by
  obtain ⟨answer, w', hspawn, hspawned⟩ := spawn_spawned h bundle
  cases hspawned with
  | made hmade =>
    obtain ⟨hfresh, honce, hrep'⟩ := hrep.made h hmade
    exact follows_of (by simp only [call, hspawn]) (.create hfresh honce)
      hmade.sound hmade.number hrep'
  | refused heffect hcause =>
    exact follows_of (by simp only [call, hspawn])
      (.createRefused (hcause.refusesSet h (List.Perm.refl _)) hcause)
      heffect.sound heffect.number (hrep.unchanged h heffect)

theorem createAs_follows (stated : List T) (bundle : Bundle T V) :
    w.Follows m (.createAs stated bundle) := by
  obtain ⟨answer, w', hspawn, hspawned, hfits⟩ := spawnStated_spawned h stated bundle
  cases hspawned with
  | made hmade =>
    obtain ⟨hfresh, honce, hrep'⟩ := hrep.made h hmade
    exact follows_of (by simp only [call, hspawn]) (.createAs hfresh honce (hfits rfl))
      hmade.sound hmade.number hrep'
  | refused heffect hcause =>
    exact follows_of (by simp only [call, hspawn]) (.createAsRefused hcause)
      heffect.sound heffect.number (hrep.unchanged h heffect)

theorem destroy_follows {e : Entity} (he : e.world = w.number) : w.Follows m (.destroy e) := by
  rcases alive_or_dead h hrep he with ⟨a, values, b, hhas, hb, -⟩ | ⟨hnot, hdead⟩
  · rcases destroy_cases h he hhas with
      ⟨w', hdestroy, heffect, hdead⟩ | ⟨error, hlacks, hdestroy⟩
    · exact follows_of (by simp only [call, hdestroy]) (.destroy hb)
        heffect.sound heffect.number (hrep.destroyed h he heffect hdead)
    · exact follows_of (by simp only [call, hdestroy]) (.destroyRefused hb hhas hlacks)
        h rfl hrep
  · exact follows_of (by simp only [call, destroy_of_not_owns h hnot]) (.destroyDead hdead)
      h rfl hrep

theorem add_follows {e : Entity} (he : e.world = w.number) (t : T) (value : V) :
    w.Follows m (.add e t value) := by
  rcases alive_or_dead h hrep he with ⟨a, values, b, hhas, hb, hperm⟩ | ⟨hnot, hdead⟩
  · obtain ⟨hnodup, htypes, -⟩ := agree h hhas hperm
    by_cases ht : t ∈ a.types
    -- The type is there: its value is replaced.
    · obtain ⟨slot, old, w', hadd, hslot, -, heffect, hhas'⟩ := add_of_mem h he hhas ht value
      have hset := Bundle.zip_set_perm (types_nodup_of_has h hhas)
        (h.archetype_of_has hhas).2.2.2.2 hslot value
      have hput := hset.trans (Bundle.put_perm hnodup hperm t value)
      exact follows_of (by simp only [call, hadd]) (.add hb) heffect.sound heffect.number
        (hrep.changed h he heffect hhas' hput)
    · have habsent : t ∉ b.types := fun hmem => ht ((htypes t).mp hmem)
      -- The type is new: the entity moves, and the move may be refused.
      rcases add_of_absent h he hhas ht value with ⟨w', hadd, hmigrated⟩ |
        ⟨error, w', hadd, hmigrated⟩
      · cases hmigrated with
        | moved effect has perm =>
          -- The map puts the new component where the move puts it, at the end.
          have hput := perm.trans (hperm.append_right [(t, value)])
          rw [← Bundle.put_of_absent habsent] at hput
          exact follows_of (by simp only [call, hadd]) (.add hb) effect.sound effect.number
            (hrep.changed h he effect has hput)
      · cases hmigrated with
        | stayed halts stops effect =>
          have hall := effect.trans (effect.sound.drop_effect [value])
          exact follows_of (by simp only [call, hadd])
            (.addRefused hb habsent stops hhas halts) hall.sound hall.number
            (hrep.unchanged h hall)
        | lost strands stops effect dead _ =>
          have hdrop := (effect.sound.drop_effect [value]).mono (List.nil_subset [e.item])
          have hall := effect.trans hdrop
          exact follows_of (by simp only [call, hadd])
            (.addLost hb habsent stops hhas strands) hall.sound hall.number
            (hrep.destroyed h he hall dead)
  -- The value is dropped, which the map does not see.
  · have hdrop := h.drop_effect [value]
    exact follows_of (by simp only [call, add_of_not_owns h hnot]) (.addDead hdead) hdrop.sound
      rfl (hrep.unchanged h hdrop)

theorem remove_follows {e : Entity} (he : e.world = w.number) (t : T) :
    w.Follows m (.remove e t) := by
  rcases alive_or_dead h hrep he with ⟨a, values, b, hhas, hb, hperm⟩ | ⟨hnot, hdead⟩
  · obtain ⟨hnodup, htypes, hlookups⟩ := agree h hhas hperm
    by_cases ht : t ∈ a.types
    · obtain ⟨-, value, -, -, -, hlookup⟩ := value_of_mem h hhas ht
      have hpresent : b.lookup t = some value := (hlookups t).symm.trans hlookup
      obtain ⟨result, w', hmigrated, hremove⟩ := remove_of_mem h he hhas hlookup
      cases hmigrated with
      | moved effect has perm =>
        exact follows_of (by simp only [call, hremove, Except.map]) (.remove hb hpresent)
          effect.sound effect.number
          (hrep.changed h he effect has (perm.trans (Bundle.without_perm hnodup hperm t)))
      | stayed halts stops effect =>
        exact follows_of (by simp only [call, hremove, Except.map])
          (.removeRefused hb hpresent stops hhas halts) effect.sound effect.number
          (hrep.unchanged h effect)
      | lost strands stops effect dead _ =>
        exact follows_of (by simp only [call, hremove, Except.map])
          (.removeLost hb hpresent stops hhas strands) effect.sound effect.number
          (hrep.destroyed h he effect dead)
    · exact follows_of (by simp only [call, remove_of_absent h he hhas ht])
        (.removeAbsent hb fun hmem => ht ((htypes t).mp hmem)) h rfl hrep
  · exact follows_of (by simp only [call, remove_of_not_owns h hnot]) (.removeDead hdead)
      h rfl hrep

/-- Reading finds what the map has. -/
theorem read?_eq {e : Entity} (he : e.world = w.number) (t : T) :
    w.read? e t = m.get? e t := by
  rcases alive_or_dead h hrep he with ⟨a, values, b, hhas, hb, hperm⟩ | ⟨hnot, hdead⟩
  · rw [read?_of_has h he hhas, EntityMap.get?, hb]
    exact (agree h hhas hperm).2.2 t
  · rw [read?_of_not_owns h hnot, EntityMap.get?, hdead]
    rfl

theorem has_eq {e : Entity} (he : e.world = w.number) (t : T) :
    w.has e t = (m.get? e t).isSome := by
  rcases alive_or_dead h hrep he with ⟨a, values, b, hhas, hb, hperm⟩ | ⟨hnot, hdead⟩
  · rw [has_of_has h hhas, EntityMap.get?, hb, Bool.eq_iff_iff, decide_eq_true_iff,
      Option.isSome_iff_ne_none, ← (agree h hhas hperm).2.1 t]
    exact Decidable.not_iff_comm.mp Bundle.lookup_eq_none_iff.symm |>.symm
  · have hlives : ¬ w.Lives e.item := fun hlives => hnot ⟨he, hlives⟩
    rw [has_of_not_lives h hlives, EntityMap.get?, hdead]
    rfl

theorem update_follows {e : Entity} (he : e.world = w.number) (t : T) (f : V → V) :
    w.Follows m (.update e t f) := by
  rcases alive_or_dead h hrep he with ⟨a, values, b, hhas, hb, hperm⟩ | ⟨hnot, hdead⟩
  · obtain ⟨hnodup, htypes, hlookups⟩ := agree h hhas hperm
    have hget : m.get? e t = b.lookup t := by
      rw [EntityMap.get?, hb]
      rfl
    by_cases ht : t ∈ a.types
    · obtain ⟨slot, value, w', hupdate, hslot, hvalue, heffect, hhas'⟩ :=
        update_of_mem h he hhas ht f
      have hset := Bundle.zip_set_perm (types_nodup_of_has h hhas)
        (h.archetype_of_has hhas).2.2.2.2 hslot (f value)
      have hpresent : b.lookup t = some value := by
        rw [← hlookups, Bundle.lookup_zip (types_nodup_of_has h hhas) values hslot, hvalue]
      have hput := hset.trans (Bundle.put_perm hnodup hperm t (f value))
      exact follows_of (by simp only [call, hupdate]) (.update hb hpresent) heffect.sound
        heffect.number (hrep.changed h he heffect hhas' hput)
    · have hmissed : m.get? e t = none := by
        rw [hget, Bundle.lookup_eq_none_iff]
        exact fun hmem => ht ((htypes t).mp hmem)
      exact follows_of (by simp only [call, update_of_absent h he hhas ht])
        (.updateMissed hmissed) h rfl hrep
  · have hmissed : m.get? e t = none := by
      rw [EntityMap.get?, hdead]
      rfl
    exact follows_of (by simp only [call, update_of_not_owns h hnot]) (.updateMissed hmissed)
      h rfl hrep

omit [DecidableEq T] in
/-- The entities of the world are the handles that are alive. -/
theorem entityCount_eq_live : w.entityCount = m.live.length := by
  have hsome : ∀ item, (m.contents ⟨w.number, item⟩).isSome = decide (w.Lives item) := by
    intro item
    rcases alive_or_dead h hrep (e := ⟨w.number, item⟩) rfl with
      ⟨a, values, b, hhas, hb, -⟩ | ⟨hnot, hdead⟩
    · rw [hb, decide_eq_true (h.lives_of_has hhas).1]
      rfl
    · have hlives : ¬ w.Lives item := fun hlives => hnot ⟨rfl, hlives⟩
      rw [hdead, decide_eq_false hlives]
      rfl
  -- Handles were issued in the order of the items, so the two lists are filtered alike.
  rw [entityCount_eq h, EntityMap.live, hrep.issued, List.filter_map, List.length_map, living]
  congr 1
  exact List.filter_congr fun item _ => (hsome item).symm

/-- Every call on a handle of the world is a step of the map. -/
theorem call_follows (c : Call T V) (hof : c.IsOf w.number) : w.Follows m c := by
  cases c with
  | create bundle => exact create_follows h hrep bundle
  | createAs stated bundle => exact createAs_follows h hrep stated bundle
  | destroy e => exact destroy_follows h hrep hof
  | add e t value => exact add_follows h hrep hof t value
  | remove e t => exact remove_follows h hrep hof t
  | read e t => exact follows_of (by rw [call, read?_eq h hrep hof]) .read h rfl hrep
  | update e t f => exact update_follows h hrep hof t f
  | has e t => exact follows_of (by rw [call, has_eq h hrep hof]) .has h rfl hrep
  | count => exact follows_of (by rw [call, entityCount_eq_live h hrep]) .count h rfl hrep
  | memory m' =>
    have heffect := h.withMemory_effect m'
    exact follows_of rfl .memory heffect.sound heffect.number (hrep.unchanged h heffect)

end follows

/-! ### Runs -/

/-- A run of a sound world is a run of the map that it is. -/
theorem run_of_sound {w : World T V} {m : EntityMap T V} (h : w.Sound)
    (hrep : w.Represents m) {calls : List (Call T V)} (hof : ∀ c ∈ calls, c.IsOf w.number) :
    ∃ m', EntityMap.Trace w m calls (w.run calls).1 m' ∧ (w.run calls).2.Represents m' := by
  induction calls generalizing w m with
  | nil => exact ⟨m, .nil, hrep⟩
  | cons c calls ih =>
    obtain ⟨m₁, hstep, hsound, hnumber, hrep₁⟩ :=
      call_follows h hrep c (hof c (List.mem_cons_self ..))
    -- The number of the world stays, so the other calls are on its handles as well.
    obtain ⟨m₂, hrest, hrep₂⟩ := ih hsound hrep₁ fun c' hc' => by
      rw [hnumber]
      exact hof c' (List.mem_cons_of_mem _ hc')
    exact ⟨m₂, .cons hstep hrest, hrep₂⟩

/-- Whatever is called on the handles of a world from its creation on, and whatever memory
there is for each call, the world answers as the map of its handles does, and it holds what
the map has in the end. -/
theorem run_refines {number : Nat} {settings : Settings} {w : World T V}
    (hcreate : World.create number settings = .ok w) (calls : List (Call T V))
    (hof : ∀ c ∈ calls, c.IsOf number) :
    ∃ m, EntityMap.Trace w .empty calls (w.run calls).1 m ∧ (w.run calls).2.Represents m := by
  obtain ⟨hsound, rfl, hsize, -⟩ := create_sound hcreate
  have hrep : w.Represents EntityMap.empty := by
    refine ⟨?_, ?_, fun _ _ => rfl⟩
    · rw [hsize]
      rfl
    · intro e a values _ hhas
      have := (hsound.lives_of_has hhas).1.1
      omega
  exact run_of_sound hsound hrep hof

/-- Memory for everything but the slots that are free. -/
def withoutFreeIds : Memory := ⟨fun purpose _ => purpose != .freeIds⟩

/-- Four entities fill the only chunk of their archetype. A fifth one, which has its position
only, is to gain a velocity and join them. One of the four is to be destroyed while there is
no memory for its slot. A bundle is not what its type states. -/
def crowding : List (Call Sample Nat) :=
  [.create [(.position, 0), (.velocity, 1)], .create [(.velocity, 2), (.position, 3)],
    .create [(.position, 4), (.velocity, 5)], .create [(.position, 6), (.velocity, 7)],
    .create [(.position, 8)],
    .has ⟨0, 4⟩ .position, .add ⟨0, 4⟩ .velocity 9, .has ⟨0, 4⟩ .position,
    .memory withoutFreeIds, .destroy ⟨0, 1⟩, .read ⟨0, 1⟩ .velocity, .memory .ample,
    .remove ⟨0, 1⟩ .velocity, .createAs [.position] [(.velocity, 10)], .destroy ⟨0, 1⟩, .count]

/-- What they are answered. -/
def crowdingAnswers : List (Answer Nat) :=
  [.made ⟨0, 0⟩, .made ⟨0, 1⟩, .made ⟨0, 2⟩, .made ⟨0, 3⟩, .made ⟨0, 4⟩,
    .verdict true, .refused (.chunkCapacityExhausted 2), .verdict false,
    .done, .verdict false, .found (some 2), .done,
    .value 2, .refused (.componentNotFound "Velocity"), .verdict true, .number 3]

/-- The smallest chunks, and two of them. -/
def crowded : Settings := ⟨2, some 2, 1, 1, 0⟩

theorem answers_crowding : ∃ w : World Sample Nat, World.create 0 crowded = .ok w ∧
    (w.run crowding).1 = crowdingAnswers :=
  exists_of_map (by decide +kernel)

theorem run_refines_crowding : ∃ w : World Sample Nat, World.create 0 crowded = .ok w ∧
    (∀ c ∈ crowding, c.IsOf 0) ∧ (w.run crowding).1 = crowdingAnswers ∧
      ∃ m, EntityMap.Trace w .empty crowding crowdingAnswers m ∧
        (w.run crowding).2.Represents m := by
  have hof : ∀ c ∈ crowding, c.IsOf 0 := by
    simp [crowding, Call.IsOf]
  obtain ⟨w, hcreate, hanswers⟩ := answers_crowding
  have hrefines := run_refines hcreate crowding hof
  rw [hanswers] at hrefines
  exact ⟨w, hcreate, hof, hanswers, hrefines⟩

/-- A call that is refused may change the map: the fifth entity finds no room and is lost with
the position it had. And a live entity may be left alive by the call that is to destroy it. -/
theorem refused_add_destroys : ∃ w : World Sample Nat, World.create 0 crowded = .ok w ∧
    ((w.run crowding).1.drop 5).take 3 =
      [.verdict true, .refused (.chunkCapacityExhausted 2), .verdict false] ∧
    ((w.run crowding).1.drop 9).take 2 = [.verdict false, .found (some 2)] := by
  obtain ⟨w, hcreate, hanswers⟩ := answers_crowding
  refine ⟨w, hcreate, ?_⟩
  rw [hanswers]
  exact ⟨rfl, rfl⟩

end World

end ArchetypeStore

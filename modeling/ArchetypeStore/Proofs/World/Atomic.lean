import ArchetypeStore.Proofs.RowStore.Columns
import ArchetypeStore.Proofs.RowStore.Regular
import ArchetypeStore.Proofs.World.Agreement

/-! # Refused changes

  A create, an add or a remove that is refused leaves all that is stored as it was, but for
  two cases. First, the archetype that was asked for may be there now, with one chunk that is
  empty: the memory had a chunk for it, and then not enough for an entity to leave its row, or
  the bundle was not what its type states. Second, an entity that has left its row, on its way
  to an archetype that was there before, may find no room in it. Then the entity is destroyed,
  and nothing else happens. An archetype that is made for an entity always has room for it.
-/

namespace ArchetypeStore

variable {T V : Type}

/-- The entity that the call may move to another archetype. -/
def Call.mover : Call T V → Option Entity
  | .add e _ _ | .remove e _ => some e
  | _ => none

variable [ComponentType T]

namespace World

/-! ### Columns have layouts -/

/-- There is a layout for each column of each archetype. -/
def Fitted (w : World T V) : Prop :=
  ∀ key a, w.catalog.archetype? key = some a →
    ∀ t ∈ a.types, ComponentType.LaidOut t w.store.format.rowsPerChunk

variable {w w' : World T V}

theorem create_fitted {number : Nat} {settings : Settings}
    (made : World.create number settings = .ok w) : w.Fitted := by
  intro key a ha
  rw [create_archetype? made] at ha
  cases ha

section events

variable [DecidableEq T]

theorem next_fitted (h : w.Sound) (hf : w.Fitted) (event : Event T V) :
    (w.next event).Fitted := by
  intro key a ha
  rw [next_format h]
  rcases archetype_of_next h ha with hold | ⟨ts, -, -, store, hnew⟩
  · exact hf key a hold
  · exact RowStore.laidOut_of_allocateChunk (RowStore.newPartition_ok hnew).2.1

theorem after_fitted (h : w.Sound) (hf : w.Fitted) (events : List (Event T V)) :
    (w.after events).Fitted :=
  after_preserves (fun _ event h hf => next_fitted h hf event) h hf events

end events

/-! ### Leaving a row -/

/-- The id word of an item that leaves its row stays. -/
theorem idOf_vacated (h : w.Sound) {item : Nat} {a : Archetype T} {chunk row given : Nat}
    {values : List V} (hseat : w.Seat item a chunk row values) {store : RowStore T V}
    (hvacated : w.store.Vacated store chunk row given) :
    store.idOf item = w.store.idOf item := by
  unfold RowStore.idOf
  rcases hvacated.ids with ⟨-, hids⟩ | ⟨hne, moved, hmoved, hids⟩
  · rw [hids]
  · rw [hids]
    obtain ⟨hlt, -, a', hseat'⟩ := h.seated chunk given moved hmoved
    refine (RowStore.idOf_setId w.store moved.item _ item hlt).trans (if_neg ?_)
    -- The item that moves into the gap is another one.
    rintro rfl
    obtain ⟨-, -, hrow, -⟩ := h.seat_unique hseat' hseat
    exact hne hrow

/-- An entity leaves its row in the same way, whether it is to move or is destroyed. -/
theorem leave_row (h : w.Sound) {e : Entity} (he : e.world = w.number)
    {a : Archetype T} {chunk row : Nat} {values : List V}
    (hseat : w.Seat e.item a chunk row values) (hfinds : w.store.FindsRoom a.partition)
    (hmemory : allocateAll w.store.memory a.types = .ok ()) :
    ∃ store given, w.moveOut e a (w.idOf e) =
        (.ok (a.types.zip values), (w.withStore store).flag e SlotId.reserve) ∧
      w.destroy e = (true, ((w.withStore store).flag e SlotId.detach).drop values) ∧
      w.Effect (w.withStore store) [e.item] [e.item] [] ∧
      w.store.Vacated store chunk row given := by
  obtain ⟨hholds, hrest⟩ := accepts_of_seat h hseat
  obtain ⟨evicted, store, hevict, hvalues, heffect⟩ := evict_of_seat h hseat hfinds
    (fun v => if holds e v then do
        allocateAll w.store.memory a.types
        if w.isAtRest e v then .ok () else .error .entityNotFound
      else .error .entityNotFound) ()
    (by simp [hholds, hrest, hmemory, bind, Except.bind])
  obtain ⟨evicted', store', hevict', hvalues', -⟩ := evict_of_seat h hseat hfinds
    (fun v => if holds e v && w.isAtRest e v then .ok () else .error .entityNotFound) ()
    (by simp [hholds, hrest])
  obtain rfl := RowStore.evict_store hevict hevict'
  obtain ⟨chunk', row', given, cell, hlocate, -, -, -, -, -, -, hvacated, -⟩ :=
    RowStore.evict_ok h.store hevict
  have hlocate' : w.store.locate a.partition (w.idOf e) = some (chunk, row) :=
    h.locate_of_seat hseat
  rw [hlocate'] at hlocate
  cases hlocate
  refine ⟨store, given, ?_, ?_, heffect, hvacated⟩
  · unfold moveOut
    simp only [hevict, hvalues]
  · unfold destroy
    rw [access_of_seat h he hseat]
    · simp only [hevict', hvalues']
    · simp only [hevict']
      intro heq
      cases heq

variable [DecidableEq T]

/-- An entity on its way is refused only when the target has no room for it. -/
theorem finishMove_refused {e : Entity} (h : w.SoundBut [e.item]) {target : Archetype T}
    (htarget : w.catalog.archetype? target.key = some target) {carried gained : Bundle T V}
    (htypes : (Bundle.types (carried ++ gained)).Perm target.types) {error : StoreError}
    (hfinish : w.finishMove e target carried gained = (.error error, w')) :
    w.NoRoom target error ∧
      w' = ((w.setHome e.item target.key).flag e SlotId.detach).drop carried.values := by
  unfold finishMove at hfinish
  split at hfinish
  · cases hfinish
  · rename_i hmove
    cases hfinish
    obtain ⟨-, hdeclines, rfl | ⟨-, hunfit⟩⟩ := moveIn_error h htarget hmove
    · exact ⟨hdeclines.noRoom h htarget htypes, rfl⟩
    · exact absurd htypes hunfit

/-! ### What may be left of a refused change -/

/-- Nothing that is stored has changed. There may be more types with an index and more nodes
without an archetype, the archetype of a bundle type may be remembered, and a free stack may
have got memory that it has no use for yet. -/
structure SameData (w w' : World T V) : Prop where
  catalog : w.catalog.AddsNodes { w'.catalog with store := w.store }
  store : w.store.Alike w'.store
  homes : w'.homes = w.homes
  bundles : w'.bundles = w.bundles ∨ ∃ ts a, w.catalog.archetype? a.key = some a ∧
    w'.bundles = (ts, a.key) :: w.bundles

/-- The archetype of the types listed was not there and was made, with a partition of one
empty chunk. Nothing else that is stored has changed. -/
structure Readied (w : World T V) (ts : List T) (w' : World T V) : Prop where
  ready : ∃ a store, a.types.Perm ts ∧ w.catalog.archetype? a.key = none ∧
    w'.catalog.archetype? a.key = some a ∧
    (∀ key, key ≠ a.key → w'.catalog.archetype? key = w.catalog.archetype? key) ∧
    w.store.newPartition a.types = (.ok a.partition, store) ∧ store.Alike w'.store ∧
    (w'.bundles = w.bundles ∨ w'.bundles = (ts, a.key) :: w.bundles)
  registry : w.registry.Extends w'.registry
  homes : w'.homes = w.homes

/-- Why a call may go no further than to the archetype that it asks for: the memory refuses
what an entity needs to leave its row, or a bundle is not what its type states. -/
inductive Balks (w : World T V) : Call T V → List T → StoreError → Prop where
  | held {c : Call T V} {ts : List T} {error : StoreError} {e : Entity} {a : Archetype T}
      {values : List V} (mover : c.mover = some e) (home : w.Has e.item a values)
      (refuses : RefusesLeave { w with catalog := (w.catalog.ensure ts).2 } a error) :
      Balks w c ts error
  | unfit {stated : List T} {bundle : Bundle T V} {error : StoreError}
      (unfit : ¬ bundle.types.Perm stated) : Balks w (.createAs stated bundle) stated error

/-- The entity was to move to the archetype of the types listed, which was there and had no
room. All that was stored is now as if the entity was destroyed. -/
structure Lost (w : World T V) (e : Entity) (ts : List T) (error : StoreError)
    (w' : World T V) : Prop where
  destroyed : (w.destroy e).1 = true
  fatal : error.isFatal = true
  noRoom : ∃ target, w.catalog.archetype? target.key = some target ∧ target.types.Perm ts ∧
    (w.destroy e).2.NoRoom target error ∧ w'.homes = w.homes.setIfInBounds e.item target.key
  catalog : w'.catalog = { w.catalog with store := w'.store }
  /-- The id word of the entity has both flags. -/
  store : w'.store = (w.destroy e).2.store.setId e.item (w.idOf e).reserve.detach
  bundles : w'.bundles = w.bundles

/-- What a call that is refused with this error leaves of what was stored. -/
inductive Leaves (w : World T V) (c : Call T V) (error : StoreError) (w' : World T V) : Prop where
  | same (same : w.SameData w')
  | readied {ts : List T} (asks : w.asks (.call c) = some ts) (balks : w.Balks c ts error)
      (readied : w.Readied ts w')
  | lost {e : Entity} {ts : List T} (mover : c.mover = some e)
      (asks : w.asks (.call c) = some ts) (lost : w.Lost e ts error w')

omit [ComponentType T] [DecidableEq T] in
theorem SameData.refl (w : World T V) : w.SameData w :=
  ⟨.refl w.catalog, .refl w.store, rfl, .inl rfl⟩

omit [ComponentType T] [DecidableEq T] in
theorem SameData.of_catalog (hcatalog : w'.catalog = w.catalog) (hhomes : w'.homes = w.homes)
    (hbundles : w'.bundles = w.bundles ∨ ∃ ts a, w.catalog.archetype? a.key = some a ∧
      w'.bundles = (ts, a.key) :: w.bundles) : w.SameData w' := by
  refine ⟨?_, ?_, hhomes, hbundles⟩
  · rw [hcatalog]
    exact .refl w.catalog
  · show w.store.Alike w'.catalog.store
    rw [hcatalog]
    exact .refl w.store

theorem Leaves.drop {c : Call T V} {error : StoreError} (h : w.Leaves c error w')
    (values : List V) : w.Leaves c error (w'.drop values) := by
  cases h with
  | same same => exact .same ⟨same.catalog, same.store, same.homes, same.bundles⟩
  | readied asks balks readied =>
    exact .readied asks balks ⟨readied.ready, readied.registry, readied.homes⟩
  | lost mover asks lost =>
    exact .lost mover asks ⟨lost.destroyed, lost.fatal, lost.noRoom, lost.catalog, lost.store,
      lost.bundles⟩

/-- A request that is refused changes nothing that is stored. -/
theorem sameData_of_ensure (h : w.Sound) {ts : List T} {error : StoreError}
    {catalog : Catalog T V} (hensure : w.catalog.ensure ts = (.error error, catalog)) :
    w.SameData { w with catalog } := by
  have hadds := Catalog.ensure_refused h.catalog hensure
  have hstore : catalog.store = w.store := hadds.store
  refine ⟨?_, hstore ▸ .refl _, rfl, .inl rfl⟩
  show w.catalog.AddsNodes { catalog with store := w.store }
  rw [← hstore]
  exact hadds

/-- When a request is granted, the archetype was there before, or it was made. -/
theorem known_or_readied (h : w.Sound) {ts : List T} {a : Archetype T} {catalog : Catalog T V}
    (hensure : w.catalog.ensure ts = (.ok a, catalog)) :
    w.catalog.archetype? a.key = some a ∧ catalog = w.catalog ∨
      catalog.store.Fresh a.partition ∧
        ∀ w' : World T V, w'.catalog = { catalog with store := w'.store } →
          catalog.store.Alike w'.store → w'.homes = w.homes →
            (w'.bundles = w.bundles ∨ w'.bundles = (ts, a.key) :: w.bundles) →
              w.Readied ts w' := by
  obtain ⟨hwf, hstore, hgrows, ha, hperm⟩ := Catalog.ensure_ok h.catalog h.store hensure
  have hanswered := Catalog.ensure_answered h.catalog ts
  rw [hensure] at hanswered
  cases hanswered with
  | known _ there =>
    have hknown := Catalog.ensure_known h.catalog there hperm
    rw [hensure] at hknown
    exact .inl ⟨there, congrArg Prod.snd hknown⟩
  | made missing others hnew =>
    refine .inr ⟨RowStore.newPartition_fresh hnew, fun w' hcatalog halike hhomes hbundles => ?_⟩
    have hsame : ∀ key, w'.catalog.archetype? key = catalog.archetype? key := fun key => by
      rw [hcatalog]
      rfl
    refine ⟨⟨a, catalog.store, hperm, missing, (hsame _).trans ha, fun key hne =>
      (hsame key).trans (others key hne), hnew, halike, hbundles⟩, ?_, hhomes⟩
    show w.registry.Extends w'.catalog.registry
    rw [hcatalog]
    exact hgrows.registry

/-! ### Moves -/

section moves

variable (h : w.Sound) (hf : w.Fitted) {e : Entity} (he : e.world = w.number) {a : Archetype T}
  {values : List V} (hhas : w.Has e.item a values)

include h hhas

/-- Where the memory refuses what an entity needs to leave its row, no more was done than to make
the archetype ready. -/
theorem move_balked {c : Call T V} (hmover : c.mover = some e) {ts : List T}
    (hasks : w.asks (.call c) = some ts) {target : Archetype T} {catalog : Catalog T V}
    (hensure : w.catalog.ensure ts = (.ok target, catalog)) {error : StoreError}
    (hrefuses : RefusesLeave { w with catalog } a error) :
    ∃ w₁, moveOut { w with catalog } e a (w.idOf e) = (.error error, w₁) ∧
      w.Leaves c error w₁ := by
  obtain ⟨hwf, hstore, hgrows, -⟩ := Catalog.ensure_ok h.catalog h.store hensure
  have hgrown := h.grow hwf hstore hgrows
  obtain ⟨store, hout, halike, -⟩ :=
    moveOut_of_refused hgrown.sound (hgrown.has hhas) hrefuses
  rw [idOf_of_grows hgrows e] at hout
  refine ⟨_, hout, ?_⟩
  rcases known_or_readied h hensure with ⟨-, rfl⟩ | ⟨-, hreadied⟩
  · exact .same ⟨.refl w.catalog, halike, rfl, .inl rfl⟩
  · refine .readied hasks (.held hmover hhas ?_) (hreadied _ rfl halike rfl (.inl rfl))
    rw [hensure]
    exact hrefuses

include hf he

/-- Otherwise it leaves its row, and a refusal after that means that it is lost. -/
theorem move_refused {ts : List T} {target : Archetype T} {catalog : Catalog T V}
    (hensure : w.catalog.ensure ts = (.ok target, catalog))
    (hfinds : catalog.store.FindsRoom a.partition)
    (hmemory : allocateAll catalog.store.memory a.types = .ok ()) :
    ∃ w₁, moveOut { w with catalog } e a (w.idOf e) = (.ok (a.types.zip values), w₁) ∧
      ∀ carried gained error w', (Bundle.types (carried ++ gained)).Perm target.types →
        w₁.finishMove e target carried gained = (.error error, w') → w.Lost e ts error w' := by
  obtain ⟨hwf, hstore, hgrows, htarget, hperm⟩ := Catalog.ensure_ok h.catalog h.store hensure
  have hgrown := h.grow hwf hstore hgrows
  obtain ⟨chunk, row, hseat⟩ := hgrown.has hhas
  obtain ⟨store, given, hout, hdestroy, hleft, hvacated⟩ :=
    leave_row hgrown.sound he hseat hfinds hmemory
  rw [idOf_of_grows hgrows e] at hout
  refine ⟨_, hout, fun carried gained error w' htypes hfinish => ?_⟩
  have hflag := flag_effect hleft.sound (List.mem_singleton.mpr rfl : e.item ∈ [e.item])
    SlotId.reserve
  obtain ⟨hfull, rfl⟩ := finishMove_refused hflag.sound htarget htypes hfinish
  have hid := idOf_vacated hgrown.sound hseat hvacated
  rcases known_or_readied h hensure with ⟨there, rfl⟩ | ⟨hfresh, -⟩
  · have hitem : e.item < store.ids.size := hleft.items ▸ (h.lives_of_has hhas).1.1
    have hstore : (w.destroy e).2.store =
        store.setId e.item (SlotId.detach (store.idOf e.item)) :=
      congrArg (fun answer => answer.2.store) hdestroy
    refine ⟨congrArg Prod.fst hdestroy, ?_, ⟨target, there, hperm, ?_, rfl⟩, rfl, ?_, rfl⟩
    · rcases hfull.cannotGrow hflag.sound htarget with ⟨rfl, -⟩ | hchunk
      · rfl
      · -- There is a layout for a chunk of the target, since one was made before.
        have hformat : store.format = w.store.format := hvacated.same.format
        have hlaid := hf target.key target there
        rw [← hformat] at hlaid
        obtain ⟨bytes, rfl⟩ :=
          RowStore.allocateChunk_failed hleft.sound.store.valid.rows_lt hlaid hchunk
        rfl
    · unfold NoRoom
      rw [hstore]
      exact (RowStore.issue_withIds store _ _).trans
        ((RowStore.issue_withIds store _ _).symm.trans hfull)
    · have hword := RowStore.idOf_setId store e.item (SlotId.reserve (store.idOf e.item)) e.item
        hitem
      rw [if_pos rfl] at hword
      rw [hstore, RowStore.setId_setId]
      show (store.setId e.item _).setId e.item (SlotId.detach _) = _
      rw [RowStore.setId_setId]
      exact congrArg (fun word => store.setId e.item (SlotId.detach word))
        (hword.trans (congrArg SlotId.reserve hid))
  · -- A partition that was made for the entity has room for it.
    have hfresh := hfresh.vacated hvacated hleft.sound.dense
    exact absurd (hfresh.setId e.item (SlotId.reserve (store.idOf e.item)))
      (hfull.not_fresh hflag.sound)

theorem gain_refused {c : Call T V} (hmover : c.mover = some e) {t : T}
    (hasks : w.asks (.call c) = some (a.types ++ [t])) {value : V} {error : StoreError}
    (hgain : w.gain e a (w.idOf e) t value = (.error error, w')) : w.Leaves c error w' := by
  unfold gain at hgain
  cases hensure : w.catalog.ensure (a.types ++ [t]) with
  | mk answer catalog =>
    cases answer with
    | error e =>
      rw [hensure] at hgain
      cases hgain
      exact .same (sameData_of_ensure h hensure)
    | ok target =>
      rcases leave_or_refused { w with catalog } a with ⟨hfinds, hmemory⟩ | ⟨error', hrefuses⟩
      · obtain ⟨w₁, hout, hlost⟩ := move_refused h hf he hhas hensure hfinds hmemory
        obtain ⟨-, -, -, -, hperm⟩ := Catalog.ensure_ok h.catalog h.store hensure
        simp only [hensure, hout] at hgain
        refine .lost hmover hasks (hlost _ _ _ _ ?_ hgain)
        rw [Bundle.types_zip_append (h.archetype_of_has hhas).2.2.2.2]
        exact hperm.symm
      · obtain ⟨w₁, hout, hleaves⟩ := move_balked h hhas hmover hasks hensure hrefuses
        simp only [hensure, hout] at hgain
        cases hgain
        exact hleaves

theorem lose_refused {c : Call T V} (hmover : c.mover = some e) {t : T} (ht : t ∈ a.types)
    (hasks : w.asks (.call c) = some (a.types.filter (· ≠ t))) {error : StoreError}
    (hlose : w.lose e a (w.idOf e) t = (.error error, w')) : w.Leaves c error w' := by
  obtain ⟨-, value, -, -, -, hlookup⟩ := value_of_mem h hhas ht
  unfold lose at hlose
  cases hensure : w.catalog.ensure (a.types.filter (· ≠ t)) with
  | mk answer catalog =>
    cases answer with
    | error e =>
      rw [hensure] at hlose
      cases hlose
      exact .same (sameData_of_ensure h hensure)
    | ok target =>
      rcases leave_or_refused { w with catalog } a with ⟨hfinds, hmemory⟩ | ⟨error', hrefuses⟩
      · obtain ⟨w₁, hout, hlost⟩ := move_refused h hf he hhas hensure hfinds hmemory
        obtain ⟨-, -, -, -, hperm⟩ := Catalog.ensure_ok h.catalog h.store hensure
        simp only [hensure, hout, hlookup] at hlose
        split at hlose
        · rename_i hfinish
          cases hlose
          refine Leaves.drop (.lost hmover hasks (hlost _ _ _ _ ?_ hfinish)) [value]
          have hzip := Bundle.types_zip (h.archetype_of_has hhas).2.2.2.2
          rw [List.append_nil, Bundle.types_eraseP (hzip.symm ▸ types_nodup_of_has h hhas), hzip]
          exact hperm.symm
        · cases hlose
      · obtain ⟨w₁, hout, hleaves⟩ := move_balked h hhas hmover hasks hensure hrefuses
        simp only [hensure, hout] at hlose
        cases hlose
        exact hleaves

end moves

/-! ### Making -/

/-- An entity that is refused by its archetype is taken back, and nothing else happens. -/
theorem spawnIn_refused (h : w.Sound) {a : Archetype T}
    (ha : w.catalog.archetype? a.key = some a) {bundle : Bundle T V} {error : StoreError}
    (hspawn : w.spawnIn a bundle = (.error error, w')) :
    w.Declines a bundle error ∧ w'.catalog = w.catalog ∧ w'.homes = w.homes ∧
      w'.bundles = w.bundles := by
  obtain ⟨hnew, -⟩ := newEntity_effect h a.key
  have hfirst : (w.newEntity a.key).1 = ⟨w.number, w.store.ids.size⟩ := rfl
  have hcatalog : { w.catalog with store := { w.store with ids := (w.store.ids.push 0).pop } } =
      w.catalog := by
    rw [RowStore.ids_dropLastItem_newItem]
    rfl
  unfold spawnIn at hspawn
  cases hmove : (w.newEntity a.key).2.moveIn a w.store.ids.size bundle with
  | mk answer moved =>
    cases answer with
    | ok id =>
      simp only [hfirst, hmove] at hspawn
      cases hspawn
    | error e =>
      obtain ⟨-, hdeclines, hmoved⟩ := moveIn_error hnew ha hmove
      simp only [hfirst, hmove] at hspawn
      cases hspawn
      rcases hmoved with rfl | ⟨rfl, -⟩
      · refine ⟨hdeclines.of_newEntity, hcatalog, ?_, rfl⟩
        show ((w.homes.push a.key).setIfInBounds w.store.ids.size a.key).pop = w.homes
        rw [← h.homes]
        grind
      · exact ⟨hdeclines.of_newEntity, hcatalog, Array.pop_push .., rfl⟩

/-- A bundle that is refused leaves no more behind than the archetype that its type states, and
that only if the bundle does not fit. -/
theorem spawnStated_refused (h : w.Sound) {stated : List T} {bundle : Bundle T V}
    {error : StoreError} (hspawn : w.spawnStated stated bundle = (.error error, w')) :
    w.SameData w' ∨ ¬ bundle.types.Perm stated ∧ w.Readied stated w' := by
  unfold spawnStated archetypeOfBundle at hspawn
  cases hcached : (w.bundles.lookup stated).bind w.catalog.archetype? with
  | some a =>
    obtain ⟨ha, -⟩ := archetype_of_remembered h hcached
    simp only [hcached] at hspawn
    obtain ⟨-, hcatalog, hhomes, hbundles⟩ := spawnIn_refused h ha hspawn
    exact .inl (.of_catalog hcatalog hhomes (.inl hbundles))
  | none =>
    simp only [hcached] at hspawn
    cases hensure : w.catalog.ensure stated with
    | mk answer catalog =>
      cases answer with
      | error e =>
        simp only [hensure] at hspawn
        cases hspawn
        have hsame := sameData_of_ensure h hensure
        exact .inl ⟨hsame.catalog, hsame.store, rfl, .inl rfl⟩
      | ok a =>
        simp only [hensure] at hspawn
        obtain ⟨hwf, hstore, hgrows, ha, hperm⟩ := Catalog.ensure_ok h.catalog h.store hensure
        have hremember := remember_effect (h.grow hwf hstore hgrows).sound ha hperm
        obtain ⟨hdeclines, hcatalog, hhomes, hbundles⟩ :=
          spawnIn_refused hremember.sound ha hspawn
        have hsame : w'.catalog = catalog := hcatalog
        rcases known_or_readied h hensure with ⟨there, rfl⟩ | ⟨hfresh, hreadied⟩
        · exact .inl (.of_catalog hsame hhomes (.inr ⟨_, a, there, hbundles⟩))
        · have hstore : w'.store = catalog.store := congrArg Catalog.store hsame
          refine .inr ⟨fun hfits => ?_, hreadied w' ?_ (hstore ▸ .refl _) hhomes (.inr hbundles)⟩
          · -- A partition that was made for the bundle has room for it.
            have hfull := hdeclines.noRoom hremember.sound ha (hfits.trans hperm.symm)
            exact hfull.not_fresh hremember.sound hfresh
          · rw [hstore]
            exact hsame

section calls

variable (h : w.Sound) (hf : w.Fitted)

include h hf

theorem add_refused {e : Entity} {t : T} {value : V} {error : StoreError}
    (hadd : w.add e t value = (.error error, w')) : w.Leaves (.add e t value) error w' := by
  rcases owned_or_not h e with ⟨he, a, values, hhas⟩ | hnot
  · by_cases ht : t ∈ a.types
    · obtain ⟨slot, old, w₁, hadd', -⟩ := add_of_mem h he hhas ht value
      rw [hadd] at hadd'
      cases hadd'
    · rw [add_eq_gain h he hhas ht] at hadd
      split at hadd
      · cases hadd
      · rename_i hgain
        cases hadd
        have hasks : w.asks (.call (.add e t value)) = some (a.types ++ [t]) := by
          obtain ⟨chunk, row, hseat⟩ := hhas
          simp [asks, locate_of_seat h he hseat, ht]
        exact (gain_refused h hf he hhas rfl hasks hgain).drop [value]
  · rw [add_of_not_owns h hnot] at hadd
    cases hadd
    exact Leaves.drop (.same (.refl w)) [value]

theorem remove_refused {e : Entity} {t : T} {error : StoreError}
    (hremove : w.remove e t = (.error error, w')) : w.Leaves (.remove e t) error w' := by
  rcases owned_or_not h e with ⟨he, a, values, hhas⟩ | hnot
  · by_cases ht : t ∈ a.types
    · rw [remove_eq_lose h he hhas ht] at hremove
      have hasks : w.asks (.call (.remove e t)) = some (a.types.filter (· ≠ t)) := by
        obtain ⟨chunk, row, hseat⟩ := hhas
        simp [asks, locate_of_seat h he hseat, ht]
      exact lose_refused h hf he hhas rfl ht hasks hremove
    · rw [remove_of_absent h he hhas ht] at hremove
      cases hremove
      exact .same (.refl w)
  · rw [remove_of_not_owns h hnot] at hremove
    cases hremove
    exact .same (.refl w)

end calls

/-! ### What entities are left with -/

/-- Who lives afterwards has what it had before. -/
structure Spares (w w' : World T V) : Prop where
  sound : w'.Sound
  number : w'.number = w.number
  kept : ∀ item, w'.Lives item → ∃ a values, w.Has item a values ∧ w'.Has item a values

omit [DecidableEq T] in
/-- It is enough that those who may have changed are dead. -/
theorem Effect.spares {touched : List Nat} {gone : List V} (heffect : w.Effect w' [] touched gone)
    (hdead : ∀ item ∈ touched, ¬ w'.Lives item) : w.Spares w' := by
  refine ⟨heffect.sound, heffect.number, fun item hlives => ?_⟩
  obtain ⟨a, values, hhas⟩ := (lives_iff heffect.sound).mp hlives
  have hitem : item ∉ touched := fun hmem => hdead item hmem hlives
  exact ⟨a, values, (heffect.keeps item hitem a values).mpr hhas, hhas⟩

omit [DecidableEq T] in
theorem Spares.drop (h : w.Spares w') (values : List V) : w.Spares (w'.drop values) := by
  refine ⟨h.sound.drop values, h.number, fun item hlives => ?_⟩
  obtain ⟨a, vs, hhas, hhas'⟩ := h.kept item hlives
  exact ⟨a, vs, hhas, (h.sound.drop_effect values).has hhas'⟩

theorem Migrated.spares {e : Entity} {a : Archetype T} {ts : List T} {before after : Bundle T V}
    {error : StoreError} (h : w.Migrated e a ts before after (.error error) w') :
    w.Spares w' := by
  cases h with
  | stayed _ _ effect =>
    apply effect.spares
    simp
  | lost _ _ effect dead _ =>
    apply effect.spares
    simpa using dead

omit [DecidableEq T] in
theorem Spares.refl (h : w.Sound) : w.Spares w := by
  apply (Effect.refl h).spares
  simp

theorem spawnStated_spares (h : w.Sound) {stated : List T} {bundle : Bundle T V}
    {error : StoreError} (hspawn : w.spawnStated stated bundle = (.error error, w')) :
    w.Spares w' := by
  obtain ⟨answer, w₁, hspawn', hspawned, -⟩ := spawnStated_spawned h stated bundle
  rw [hspawn] at hspawn'
  cases hspawn'
  cases hspawned with
  | refused effect _ =>
    apply effect.spares
    simp

theorem add_spares (h : w.Sound) {e : Entity} {t : T} {value : V} {error : StoreError}
    (hadd : w.add e t value = (.error error, w')) : w.Spares w' := by
  rcases owned_or_not h e with ⟨he, a, values, hhas⟩ | hnot
  · by_cases ht : t ∈ a.types
    · obtain ⟨slot, old, w₁, hadd', -⟩ := add_of_mem h he hhas ht value
      rw [hadd] at hadd'
      cases hadd'
    · rcases add_of_absent h he hhas ht value with ⟨w₁, hadd', -⟩ | ⟨error', w₁, hadd', hmigrated⟩
      · rw [hadd] at hadd'
        cases hadd'
      · rw [hadd] at hadd'
        cases hadd'
        exact hmigrated.spares.drop [value]
  · rw [add_of_not_owns h hnot] at hadd
    cases hadd
    exact (Spares.refl h).drop [value]

theorem remove_spares (h : w.Sound) {e : Entity} {t : T} {error : StoreError}
    (hremove : w.remove e t = (.error error, w')) : w.Spares w' := by
  rcases owned_or_not h e with ⟨he, a, values, hhas⟩ | hnot
  · by_cases ht : t ∈ a.types
    · obtain ⟨-, old, -, -, -, hlookup⟩ := value_of_mem h hhas ht
      obtain ⟨result, w₁, hmigrated, hremove'⟩ := remove_of_mem h he hhas hlookup
      rw [hremove] at hremove'
      cases result with
      | ok => cases hremove'
      | error error' =>
        cases hremove'
        exact hmigrated.spares
    · rw [remove_of_absent h he hhas ht] at hremove
      cases hremove
      exact .refl h
  · rw [remove_of_not_owns h hnot] at hremove
    cases hremove
    exact .refl h

theorem Spares.whole (h : w.Sound) (hspares : w.Spares w') {e : Entity} (he : w'.IsLive e) :
    w.IsLive e ∧ w'.home? e = w.home? e ∧
      ∀ t, w'.has e t = w.has e t ∧ w'.read? e t = w.read? e t := by
  obtain ⟨hworld, a, values, hnow⟩ := (isLive_iff hspares.sound e).mp he
  obtain ⟨a', values', hhas, hhas'⟩ :=
    hspares.kept e.item (hspares.sound.lives_of_has hnow).1
  have hbefore : e.world = w.number := hworld.trans hspares.number
  refine ⟨(isLive_iff h e).mpr ⟨hbefore, _, _, hhas⟩, ?_, fun t => ⟨?_, ?_⟩⟩
  · obtain ⟨chunk, row, hseat⟩ := hhas
    obtain ⟨chunk', row', hseat'⟩ := hhas'
    exact hseat'.home.trans hseat.home.symm
  · rw [has_of_has h hhas, has_of_has hspares.sound hhas']
  · rw [read?_of_has h hbefore hhas, read?_of_has hspares.sound hworld hhas']

omit [DecidableEq T] in
/-- Between operations only destroyed entities have the reserved flag. -/
theorem detached_of_reserved (h : w.Sound) {item : Nat}
    (hreserved : (w.store.idOf item).isReserved = true) :
    (w.store.idOf item).isDetached = true := by
  by_cases hlt : item < w.store.ids.size
  · apply Decidable.byContradiction
    intro hflag
    obtain ⟨a, values, chunk, row, hseat⟩ :=
      h.lives item ⟨hlt, by simpa using hflag⟩ List.not_mem_nil
    rw [SlotId.not_isReserved_of_isPlain (h.plain_of_seat hseat)] at hreserved
    cases hreserved
  · rw [RowStore.idOf, Array.getElem?_eq_none (Nat.le_of_not_lt hlt)] at hreserved
    cases hreserved

/-! ### Atomicity -/

/-- What a call that is refused may have done. -/
structure Atomic (w : World T V) (c : Call T V) (error : StoreError) (w' : World T V) : Prop where
  /-- All that is stored is as before, or an archetype was made ready in vain, or an entity that
  was to move is lost. -/
  stored : w.Leaves c error w'
  /-- No entity is left alive with other components than it had. -/
  whole : ∀ e, w'.IsLive e → w.IsLive e ∧ w'.home? e = w.home? e ∧
    ∀ t, w'.has e t = w.has e t ∧ w'.read? e t = w.read? e t
  flags : ∀ item, (w'.store.idOf item).isReserved = true → (w'.store.idOf item).isDetached = true

theorem atomic_of_spares (h : w.Sound) {c : Call T V} {error : StoreError} (hspares : w.Spares w')
    (hstored : w.Leaves c error w') : w.Atomic c error w' :=
  ⟨hstored, fun _ he => hspares.whole h he, fun _ => detached_of_reserved hspares.sound⟩

theorem create_atomic (h : w.Sound) {bundle : Bundle T V} {error : StoreError}
    (hspawn : w.spawn bundle = (.error error, w')) : w.Atomic (.create bundle) error w' := by
  refine atomic_of_spares h (spawnStated_spares h hspawn) (.same ?_)
  rcases spawnStated_refused h hspawn with hsame | ⟨hunfit, -⟩
  · exact hsame
  · exact absurd (List.Perm.refl _) hunfit

theorem createAs_atomic (h : w.Sound) {stated : List T} {bundle : Bundle T V}
    {error : StoreError} (hspawn : w.spawnStated stated bundle = (.error error, w')) :
    w.Atomic (.createAs stated bundle) error w' := by
  refine atomic_of_spares h (spawnStated_spares h hspawn) ?_
  rcases spawnStated_refused h hspawn with hsame | ⟨hunfit, hreadied⟩
  · exact .same hsame
  · exact .readied rfl (.unfit hunfit) hreadied

theorem call_refused (h : w.Sound) (hf : w.Fitted) {c : Call T V} {error : StoreError}
    (hcall : w.call c = (.refused error, w')) : w.Atomic c error w' := by
  cases c with
  | create bundle =>
    simp only [call] at hcall
    split at hcall
    · cases hcall
    · rename_i hspawn
      cases hcall
      exact create_atomic h hspawn
  | createAs stated bundle =>
    simp only [call] at hcall
    split at hcall
    · cases hcall
    · rename_i hspawn
      cases hcall
      exact createAs_atomic h hspawn
  | add e t value =>
    simp only [call] at hcall
    split at hcall
    · cases hcall
    · rename_i hadd
      cases hcall
      exact atomic_of_spares h (add_spares h hadd) (add_refused h hf hadd)
  | remove e t =>
    simp only [call] at hcall
    split at hcall
    · cases hcall
    · rename_i hremove
      cases hcall
      exact atomic_of_spares h (remove_spares h hremove) (remove_refused h hf hremove)
  | destroy e => cases hcall
  | read e t => cases hcall
  | update e t f => cases hcall
  | has e t => cases hcall
  | count => cases hcall
  | memory m => cases hcall

/-- Whatever happened to a world before, and whatever memory there was and is, a call that is
refused changes nothing that is stored, or it made an archetype ready in vain, or it loses the
one entity that was to move. -/
theorem refused_atomic {number : Nat} {settings : Settings}
    (made : World.create number settings = .ok w) (events : List (Event T V)) {c : Call T V}
    {error : StoreError} (hcall : (w.after events).call c = (.refused error, w')) :
    (w.after events).Atomic c error w' := by
  have h := (create_sound made).1
  exact call_refused (after_sound h events) (after_fitted h (create_fitted made) events) hcall

/-- Four entities fill the only chunk of their archetype, and the last chunk goes to a fifth
entity. -/
def packed : List (Event Sample Nat) :=
  [.archetype [.position, .velocity], .call (.create [(.position, 0), (.velocity, 1)]),
    .call (.create [(.velocity, 2), (.position, 3)]),
    .call (.create [(.position, 4), (.velocity, 5)]),
    .call (.create [(.position, 6), (.velocity, 7)]), .call (.create [(.position, 8)])]

/-- Memory for everything but components on their way. -/
def withoutTransit : Memory := ⟨fun purpose _ => purpose != .transit⟩

/-- An entity is made, and then there is no memory for it to move. -/
def stranded : List (Event Sample Nat) :=
  [.call (.create [(.position, 0)]), .call (.memory withoutTransit)]

/-- The answer to a call, with the number of chunks before and after it. -/
def chunksAround (w : World T V) (c : Call T V) : Answer V × Nat × Nat :=
  ((w.call c).1, w.store.chunkCount, (w.call c).2.store.chunkCount)

theorem answers_refused : ∃ w : World Sample Nat, World.create 0 crowded = .ok w ∧
    [(w.after packed).chunksAround (.add ⟨0, 4⟩ .velocity 9),
      (w.after stranded).chunksAround (.add ⟨0, 0⟩ .velocity 1),
      w.chunksAround (.createAs [.position] [(.velocity, 1)])] =
    [(.refused (.chunkCapacityExhausted 2), 2, 2), (.refused (.allocationFailed 8), 1, 2),
      (.refused (.componentNotFound "Velocity"), 0, 1)] :=
  exists_of_map (by decide +kernel)

/-- The fifth entity is lost, and one for which there is no memory stays. -/
theorem refused_atomic_packed : ∃ w w' w'' : World Sample Nat, World.create 0 crowded = .ok w ∧
    (w.after packed).call (.add ⟨0, 4⟩ .velocity 9) =
        (.refused (.chunkCapacityExhausted 2), w') ∧
      (w.after packed).Atomic (.add ⟨0, 4⟩ .velocity 9) (.chunkCapacityExhausted 2) w' ∧
    (w.after stranded).call (.add ⟨0, 0⟩ .velocity 1) =
        (.refused (.allocationFailed 8), w'') ∧
      (w.after stranded).Atomic (.add ⟨0, 0⟩ .velocity 1) (.allocationFailed 8) w'' := by
  obtain ⟨w, hcreate, hanswers⟩ := answers_refused
  simp only [List.cons.injEq, chunksAround, Prod.mk.injEq] at hanswers
  obtain ⟨⟨hpacked, -⟩, ⟨hstranded, -⟩, -⟩ := hanswers
  obtain ⟨w', hlost⟩ : ∃ w', (w.after packed).call (.add ⟨0, 4⟩ .velocity 9) =
      (.refused (.chunkCapacityExhausted 2), w') := ⟨_, by rw [← hpacked]⟩
  obtain ⟨w'', hstays⟩ : ∃ w'', (w.after stranded).call (.add ⟨0, 0⟩ .velocity 1) =
      (.refused (.allocationFailed 8), w'') := ⟨_, by rw [← hstranded]⟩
  exact ⟨w, w', w'', hcreate, hlost, refused_atomic hcreate packed hlost, hstays,
    refused_atomic hcreate stranded hstays⟩

/-- A call that is refused may leave a chunk behind: no entity moves into it, since there is no
memory for it to leave its row, or no entity is made in it, since the bundle is not what its
type states. -/
theorem refused_leaves_chunk : ∃ w : World Sample Nat, World.create 0 crowded = .ok w ∧
    (w.after stranded).chunksAround (.add ⟨0, 0⟩ .velocity 1) =
      (.refused (.allocationFailed 8), 1, 2) ∧
    w.chunksAround (.createAs [.position] [(.velocity, 1)]) =
      (.refused (.componentNotFound "Velocity"), 0, 1) := by
  obtain ⟨w, hcreate, hanswers⟩ := answers_refused
  simp only [List.cons.injEq] at hanswers
  exact ⟨w, hcreate, hanswers.2.1, hanswers.2.2.1⟩

end World

end ArchetypeStore

import ArchetypeStore.Proofs.Catalog.Evolved
import ArchetypeStore.Proofs.RowStore.Regular

/-! # Worlds whose rows are shared

  A world hands out its archetypes, and each archetype has a partition. So while a world is
  in use, callers may work on its partitions as well: they reserve slots, register items
  there, remove them by id, link nodes, and make items that no call of the world made.
  What holds of entities in rows may then fail. What is left is that each archetype has its
  types as the columns of its partition, and what lasts of the rows when items are stored
  with a value for each column. Each operation of a world keeps that much, whatever handles
  it is given. So the links of chunks last in any case, and rows stay regular as long as ids
  are registered only while they are out.
-/

namespace ArchetypeStore

variable {T V : Type}

/-! ### Archetypes of a catalog -/

namespace Catalog

theorem archetype?_link (c : Catalog T V) (source target key : UInt64) :
    (c.link source target).archetype? key = c.archetype? key := by
  unfold archetype? link
  rw [node?_modifyNode fun n => SetNode.key_link n target]
  split
  · cases c.node? key with
    | none => rfl
    | some n => exact SetNode.archetype_link n target
  · rfl

variable [ComponentType T]

/-- The archetype that a request answers with is one of the catalog. -/
theorem archetype?_of_ensure [DecidableEq T] {c c' : Catalog T V} {ts : List T} {a : Archetype T}
    (h : c.ensure ts = (.ok a, c')) : ∃ key, c'.archetype? key = some a := by
  unfold ensure at h
  split at h
  · cases h
  · rename_i key c₁ _
    refine ⟨key, ?_⟩
    rcases c₁.materialize_cases key with ⟨-, hmat⟩ | ⟨a', ha, hmat⟩ | ⟨_, _, -, -, -, hmat⟩ |
      ⟨n, partition, store, hn, -, -, hmat⟩
    all_goals
      rw [hmat] at h
      cases h
    · exact ha
    · exact archetype?_give c₁ store key partition hn

end Catalog

namespace World

variable [ComponentType T]

/-! ### The invariant -/

/-- The archetype has the slots of its types, and they are the columns of its partition. -/
structure Houses (w : World T V) (a : Archetype T) : Prop where
  wf : a.Wf w.registry
  layout : w.store.layout? a.partition = some a.types

/-- What every world has, whatever happens to its rows, as long as they have a property that
lasts. -/
structure Founded (P : RowStore T V → Prop) (w : World T V) : Prop where
  lasting : RowStore.Lasting P
  catalog : w.catalog.Keyed
  store : P w.store
  housed : ∀ key a, w.catalog.archetype? key = some a → w.store.layout? a.partition = some a.types

/-- The rows of the world are regular. -/
abbrev Regular (w : World T V) (reserved : List SlotId) : Prop :=
  w.Founded (RowStore.Regular · reserved)

variable {P : RowStore T V → Prop}

theorem Founded.houses {w : World T V} (h : w.Founded P) {key : UInt64} {a : Archetype T}
    (ha : w.catalog.archetype? key = some a) : w.Houses a :=
  ⟨h.catalog.archetype_wf ha, h.housed key a ha⟩

/-- The rows of the second world have the property, and the archetypes of the first are there. -/
structure Upheld (P : RowStore T V → Prop) (w w' : World T V) : Prop where
  founded : w'.Founded P
  houses : ∀ a, w.Houses a → w'.Houses a
  archetypes : ∀ key a, w.catalog.archetype? key = some a → w'.catalog.archetype? key = some a
  format : w'.store.format = w.store.format

/-- A step that keeps the property of the rows, and the archetypes that there are. -/
def Upholds (P : RowStore T V → Prop) (w w' : World T V) : Prop := w.Founded P → Upheld P w w'

section

variable {w w' w'' : World T V}

theorem Upheld.trans {P' : RowStore T V → Prop} (h : Upheld P w w') (h' : Upheld P' w' w'') :
    Upheld P' w w'' :=
  ⟨h'.founded, fun a ha => h'.houses a (h.houses a ha),
    fun key a ha => h'.archetypes key a (h.archetypes key a ha), h'.format.trans h.format⟩

theorem Upholds.refl (w : World T V) : Upholds P w w := fun h =>
  ⟨h, fun _ ha => ha, fun _ _ ha => ha, rfl⟩

theorem Upholds.trans (h : Upholds P w w') (h' : Upholds P w' w'') :
    Upholds P w w'' := by
  intro hw
  have hheld := h hw
  exact hheld.trans (h' hheld.founded)

end

/-- The rows change, and the rest of the catalog does not. -/
theorem Founded.withRows {P' : RowStore T V → Prop} {w w' : World T V} (h : w.Founded P)
    (hlasting : RowStore.Lasting P')
    (hcatalog : w'.catalog = { w.catalog with store := w'.store }) (hstore : P' w'.store)
    (hretains : w.store.Retains w'.store) : Upheld P' w w' := by
  have hregistry : w'.registry = w.registry := by
    rw [World.registry, hcatalog]
    rfl
  refine ⟨⟨hlasting, ?_, hstore, fun key a ha => ?_⟩,
    fun a ha => ⟨?_, hretains.layout _ _ ha.layout⟩, fun key a ha => ?_, hretains.format⟩
  · rw [hcatalog]
    exact h.catalog.withStore w'.store
  · rw [hcatalog] at ha
    exact hretains.layout _ _ (h.housed key a ha)
  · rw [hregistry]
    exact ha.wf
  · rw [hcatalog]
    exact ha

/-- The id words change, and nothing else that the invariant is about. -/
theorem Founded.withIds {w w' : World T V} (h : w.Founded P) (ids : Array SlotId)
    (hcatalog : w'.catalog = { w.catalog with store := { w.store with ids } }) :
    Upheld P w w' := by
  have hstore : w'.store = { w.store with ids } := by
    rw [World.store, hcatalog]
  refine h.withRows h.lasting (by rw [hstore, hcatalog]) ?_
    ⟨by rw [hstore], fun q layout hq => ?_⟩
  · rw [hstore]
    exact h.lasting.withIds h.store ids
  · rw [hstore]
    exact hq

/-! ### Small steps -/

section steps

theorem newEntity_upholds (w : World T V) (home : UInt64) :
    Upholds P w (w.newEntity home).2 := fun h => h.withIds _ rfl

theorem dropLastEntity_upholds (w : World T V) : Upholds P w w.dropLastEntity :=
  fun h => h.withIds _ rfl

theorem flag_upholds (w : World T V) (e : Entity) (f : SlotId → SlotId) :
    Upholds P w (w.flag e f) := fun h => h.withIds _ rfl

/-- Homes, dropped values and remembered keys are no part of the invariant. -/
theorem Upholds.of_catalog_eq {w w' : World T V} (h : w'.catalog = w.catalog) :
    Upholds P w w' := fun hw => hw.withIds w.store.ids h

theorem drop_upholds (w : World T V) (values : List V) : Upholds P w (w.drop values) :=
  .of_catalog_eq rfl

theorem evict_upholds {α : Type} (w : World T V) (partition : Nat) (id : SlotId)
    (accept : RowView V → Except StoreError α) :
    Upholds P w (w.withStore (w.store.evict partition id accept).2) := by
  intro h
  obtain ⟨hstore, hretains⟩ := h.lasting.evict h.store partition id accept
  exact h.withRows h.lasting rfl hstore hretains

omit [ComponentType T] in
/-- The values of an entity are what a row holds. -/
theorem cell_of_valuesAt {w : World T V} {e : Entity} {a : Archetype T} {id : SlotId}
    {v : RowView V} {values : List V} (h : w.valuesAt e a id = .ok (v, values)) :
    w.store.locate a.partition id = some (v.chunk, v.row) ∧
      w.store.cell? v.chunk v.row = some ⟨e.item, values⟩ := by
  unfold valuesAt at h
  split at h
  · cases h
  · rename_i v' hrow
    obtain ⟨hlocate, hseen⟩ := RowStore.of_row hrow
    split at h
    · cases h
    · rename_i cell hcell
      split at h
      · rename_i hitem
        cases h
        rw [← hitem]
        exact ⟨hlocate, hseen.trans hcell⟩
      · cases h

theorem changeAt_upholds (w : World T V) (e : Entity) (a : Archetype T) (id : SlotId) (slot : Nat)
    (f : V → V) : Upholds P w (w.changeAt e a id slot f).2 := by
  unfold changeAt
  split
  · exact .refl w
  · rename_i v values hvalues
    obtain ⟨-, hcell⟩ := cell_of_valuesAt hvalues
    split
    · exact .refl w
    · intro h
      exact h.withRows h.lasting rfl (h.lasting.setCell h.store hcell List.length_set)
        ⟨rfl, fun q layout hq => hq⟩

end steps

/-! ### Requests -/

section requests

variable [DecidableEq T]

theorem ensureNode_upholds (w : World T V) (ts : List T) :
    Upholds P w { w with catalog := (w.catalog.ensureNode ts).2 } := by
  intro h
  have hkeyed := h.catalog.ensureNode ts
  have hadds := Catalog.ensureNode_adds h.catalog.registry ts
  have harchetypes := hadds.archetype? h.catalog.nodes.keys_nodup hkeyed.nodes.keys_nodup
  have hstore : (w.catalog.ensureNode ts).2.store = w.store := hadds.store
  refine ⟨⟨h.lasting, hkeyed, ?_, fun key a ha => ?_⟩,
    fun a ha => ⟨ha.wf.mono hadds.registry, ?_⟩,
    fun key a ha => (harchetypes key).trans ha, congrArg RowStore.format hstore⟩
  · show P (w.catalog.ensureNode ts).2.store
    rw [hstore]
    exact h.store
  · show (w.catalog.ensureNode ts).2.store.layout? a.partition = some a.types
    rw [hstore]
    exact h.housed key a ((harchetypes key).symm.trans ha)
  · show (w.catalog.ensureNode ts).2.store.layout? a.partition = some a.types
    rw [hstore]
    exact ha.layout

omit [DecidableEq T] in
/-- An archetype is made with a partition for its types. -/
theorem materialize_upholds (w : World T V) (key : UInt64) :
    Upholds P w { w with catalog := (w.catalog.materialize key).2 } := by
  intro h
  have hkeyed := h.catalog.materialize key
  rcases Catalog.materialize_cases w.catalog key with ⟨-, hmat⟩ | ⟨a, -, hmat⟩ |
    ⟨n, e, -, -, -, hmat⟩ | ⟨n, partition, store, hn, hbare, hnew, hmat⟩
  · rw [hmat]
    exact Upholds.refl w h
  · rw [hmat]
    exact Upholds.refl w h
  · rw [hmat]
    exact Upholds.refl w h
  · rw [hmat] at hkeyed ⊢
    obtain ⟨hstore, hretains⟩ := h.lasting.newPartition h.store (Archetype.layoutOf n.types)
    rw [show w.store.newPartition (Archetype.layoutOf n.types) = _ from hnew] at hstore hretains
    have hgiven : World.store { w with catalog := w.catalog.give store key partition } = store :=
      Catalog.store_give w.catalog store key partition
    have hregistry : World.registry { w with catalog := w.catalog.give store key partition } =
        w.registry := Catalog.registry_give w.catalog store key partition
    refine ⟨⟨h.lasting, hkeyed, ?_, fun key' a ha => ?_⟩, fun a ha => ⟨?_, ?_⟩,
      fun key' a ha => ?_, (congrArg RowStore.format hgiven).trans hretains.format⟩
    · rw [hgiven]
      exact hstore
    · rw [hgiven]
      -- The archetype is the new one, with the new partition, or it was there before.
      by_cases heq : key' = key
      · rw [heq, Catalog.archetype?_give w.catalog store key partition hn] at ha
        cases ha
        show store.layout? partition = some (Archetype.layoutOf n.types)
        rw [RowStore.layout?_newPartition hnew, if_pos rfl]
      · rw [Catalog.archetype?_give_other w.catalog store key partition heq] at ha
        exact hretains.layout _ _ (h.housed key' a ha)
    · rw [hregistry]
      exact ha.wf
    · rw [hgiven]
      exact hretains.layout _ _ ha.layout
    · -- The node had no archetype before it was given one.
      have hne : key' ≠ key := by
        rintro rfl
        rw [hbare] at ha
        cases ha
      exact (Catalog.archetype?_give_other w.catalog store key partition hne).trans ha

/-- The archetype that a request answers with is there after it. -/
theorem ensure_upholds (w : World T V) (ts : List T) :
    Upholds P w { w with catalog := (w.catalog.ensure ts).2 } := by
  have hnode : Upholds P w _ := ensureNode_upholds w ts
  unfold Catalog.ensure
  cases hanswer : w.catalog.ensureNode ts with
  | mk answer c =>
    rw [hanswer] at hnode
    cases answer with
    | error e => exact hnode
    | ok key => exact hnode.trans (materialize_upholds { w with catalog := c } key)

theorem houses_of_ensure {w : World T V} (h : w.Founded P) {ts : List T} {a : Archetype T}
    {c : Catalog T V} (hensure : w.catalog.ensure ts = (.ok a, c)) :
    Houses { w with catalog := c } a := by
  have hfounded := (ensure_upholds w ts h).founded
  rw [hensure] at hfounded
  obtain ⟨key, hkey⟩ := Catalog.archetype?_of_ensure hensure
  exact hfounded.houses hkey

end requests

/-! ### Operations -/

section operations

theorem access_upholds {α : Type} {w w' : World T V} {e : Entity} {body : Body T V α}
    {answer : Except StoreError α}
    (hbody : ∀ (w : World T V) a id, Upholds P w (body w a id).2)
    (h : w.access e body = (answer, w')) : Upholds P w w' :=
  access_relates .refl .trans hbody h

/-- An entity leaves its row for good. -/
theorem vacate_upholds (w : World T V) (e : Entity) (a : Archetype T) (id : SlotId) :
    Upholds P w (match w.store.evict a.partition id fun v =>
        if holds e v && w.isAtRest e v then .ok () else .error .entityNotFound with
      | (.error error, store) => ((.error error : Except StoreError Unit), w.withStore store)
      | (.ok evicted, store) =>
        (.ok (), ((w.withStore store).flag e SlotId.detach).drop evicted.values)).2 := by
  have hevict : Upholds P w _ := evict_upholds w a.partition id fun v =>
    if holds e v && w.isAtRest e v then (.ok () : Except StoreError Unit)
    else .error .entityNotFound
  split
  · rename_i hevicted
    rwa [hevicted] at hevict
  · rename_i evicted store hevicted
    rw [hevicted] at hevict
    exact hevict.trans ((flag_upholds (w.withStore store) e _).trans (drop_upholds _ _))

theorem destroy_upholds (w : World T V) (e : Entity) : Upholds P w (w.destroy e).2 := by
  unfold destroy
  split
  all_goals
    rename_i hrun
    exact access_upholds (fun w a id => vacate_upholds w e a id) hrun

theorem moveOut_upholds (w : World T V) (e : Entity) (a : Archetype T) (id : SlotId) :
    Upholds P w (w.moveOut e a id).2 := by
  have hevict : Upholds P w _ := evict_upholds w a.partition id fun v =>
    if holds e v then do
      allocateAll w.store.memory a.types
      if w.isAtRest e v then (.ok () : Except StoreError Unit) else .error .entityNotFound
    else .error .entityNotFound
  unfold moveOut
  split
  · rename_i hrun
    rwa [hrun] at hevict
  · rename_i evicted store hrun
    rw [hrun] at hevict
    exact hevict.trans (flag_upholds (w.withStore store) e _)

variable [DecidableEq T]

/-- Components that were brought into slot order fill the columns of the archetype. -/
theorem fills_of_reorder {w : World T V} (h : w.Founded P) {a : Archetype T}
    (ha : w.Houses a) {components ordered : Bundle T V}
    (hreorder : a.reorder w.registry components = (.ok (), ordered)) :
    ∀ layout, w.store.layout? a.partition = some layout →
      (Bundle.values ordered).length = layout.length := by
  obtain ⟨htypes, -⟩ := Archetype.reorder_ok ha.wf h.catalog.registry hreorder
  intro layout hlayout
  rw [ha.layout] at hlayout
  cases hlayout
  rw [← htypes, Bundle.types, Bundle.values, List.length_map, List.length_map]

theorem moveIn_upholds (w : World T V) {a : Archetype T} (ha : w.Houses a) (item : Nat)
    (components : Bundle T V) : Upholds P w (w.moveIn a item components).2 := by
  intro h
  unfold moveIn
  split
  · exact Upholds.refl w h
  · rename_i ordered hreorder
    obtain ⟨hstore, hretains⟩ := h.lasting.insert h.store item (fills_of_reorder h ha hreorder)
    exact h.withRows h.lasting rfl hstore hretains

theorem spawnIn_upholds (w : World T V) {a : Archetype T} (ha : w.Houses a) (bundle : Bundle T V) :
    Upholds P w (w.spawnIn a bundle).2 := by
  intro h
  have hnew := newEntity_upholds w a.key h
  have hmoved : Upholds P _ _ := moveIn_upholds _ (hnew.houses a ha)
    (w.newEntity a.key).1.item bundle
  unfold spawnIn
  dsimp only
  split
  · exact ((newEntity_upholds w a.key).trans (hmoved.trans (drop_upholds _ _))) h
  · exact ((newEntity_upholds w a.key).trans
      (hmoved.trans ((dropLastEntity_upholds _).trans (drop_upholds _ _)))) h

/-- The archetype of a bundle is found among those remembered, or asked for. -/
theorem archetypeOfBundle_upholds (w : World T V) (ts : List T) :
    Upholds P w (w.archetypeOfBundle ts).2 := by
  have hensure : Upholds P w _ := ensure_upholds w ts
  unfold archetypeOfBundle
  split
  · exact .refl w
  · split
    all_goals
      rename_i hrun
      rw [hrun] at hensure
      exact hensure.trans (.of_catalog_eq rfl)

theorem houses_of_bundle {w w' : World T V} (h : w.Founded P) {ts : List T}
    {a : Archetype T} (hfound : w.archetypeOfBundle ts = (.ok a, w')) : w'.Houses a := by
  unfold archetypeOfBundle at hfound
  split at hfound
  · rename_i hknown
    obtain ⟨key, -, ha⟩ := Option.bind_eq_some_iff.mp hknown
    cases hfound
    exact h.houses ha
  · split at hfound
    · cases hfound
    · rename_i hensure
      have ha := houses_of_ensure h hensure
      cases hfound
      exact ⟨ha.wf, ha.layout⟩

theorem spawnStated_upholds (w : World T V) (stated : List T) (bundle : Bundle T V) :
    Upholds P w (w.spawnStated stated bundle).2 := by
  intro h
  have hfound : Upholds P w _ := archetypeOfBundle_upholds w stated
  unfold spawnStated
  split
  · rename_i hrun
    rw [hrun] at hfound
    exact hfound.trans (drop_upholds _ _) h
  · rename_i a w' hrun
    have ha := houses_of_bundle h hrun
    rw [hrun] at hfound
    exact hfound.trans (spawnIn_upholds w' ha bundle) h

theorem spawnAs_upholds (w : World T V) (ts : List T) (bundle : Bundle T V) :
    Upholds P w (w.spawnAs ts bundle).2 := by
  intro h
  have hensure : Upholds P w _ := ensure_upholds w ts
  unfold spawnAs
  split
  · rename_i hrun
    rw [hrun] at hensure
    exact hensure.trans (drop_upholds _ _) h
  · rename_i a catalog hrun
    have ha := houses_of_ensure h hrun
    rw [hrun] at hensure
    exact hensure.trans (spawnIn_upholds _ ha bundle) h

theorem finishMove_upholds (w : World T V) (e : Entity) {target : Archetype T}
    (ha : w.Houses target) (carried gained : Bundle T V) :
    Upholds P w (w.finishMove e target carried gained).2 := by
  have hmove : Upholds P w _ := moveIn_upholds w ha e.item (carried ++ gained)
  unfold finishMove
  split
  · rename_i hrun
    rwa [hrun] at hmove
  · rename_i w' hrun
    rw [hrun] at hmove
    exact hmove.trans ((flag_upholds w' e _).trans (drop_upholds _ _))

/-- The components leave their row once the target of the move is there, and the target stays. -/
theorem moveOut_of_ensure {w w' : World T V} (h : w.Founded P) {ts : List T}
    {target : Archetype T} {catalog : Catalog T V}
    (hensure : w.catalog.ensure ts = (.ok target, catalog)) {e : Entity} {a : Archetype T}
    {id : SlotId} {answer : Except StoreError (Bundle T V)}
    (hout : World.moveOut { w with catalog } e a id = (answer, w')) :
    Upheld P w w' ∧ w'.Houses target := by
  have hasked := ensure_upholds w ts h
  rw [hensure] at hasked
  have hmoved := moveOut_upholds { w with catalog } e a id hasked.founded
  rw [hout] at hmoved
  exact ⟨hasked.trans hmoved, hmoved.houses target (houses_of_ensure h hensure)⟩

theorem gain_upholds (w : World T V) (e : Entity) (a : Archetype T) (id : SlotId) (t : T)
    (value : V) : Upholds P w (w.gain e a id t value).2 := by
  intro h
  unfold gain
  split
  · rename_i hensure
    have hasked := ensure_upholds w (a.types ++ [t]) h
    rwa [hensure] at hasked
  · rename_i target catalog hensure
    split
    · rename_i hout
      exact (moveOut_of_ensure h hensure hout).1
    · rename_i carried w' hout
      obtain ⟨hleft, htarget⟩ := moveOut_of_ensure h hensure hout
      exact hleft.trans (finishMove_upholds w' e htarget carried [(t, value)] hleft.founded)

theorem lose_upholds (w : World T V) (e : Entity) (a : Archetype T) (id : SlotId) (t : T) :
    Upholds P w (w.lose e a id t).2 := by
  intro h
  unfold lose
  split
  · rename_i hensure
    have hasked := ensure_upholds w (a.types.filter (· ≠ t)) h
    rwa [hensure] at hasked
  · rename_i target catalog hensure
    split
    · rename_i hout
      exact (moveOut_of_ensure h hensure hout).1
    · rename_i carried w' hout
      obtain ⟨hleft, htarget⟩ := moveOut_of_ensure h hensure hout
      split
      · exact hleft.trans (drop_upholds w' _ hleft.founded)
      · have hfinish := finishMove_upholds w' e htarget (carried.eraseP (·.1 == t)) []
          hleft.founded
        split
        · rename_i hrun
          rw [hrun] at hfinish
          exact hleft.trans (hfinish.trans (drop_upholds _ _ hfinish.founded))
        · rename_i hrun
          rw [hrun] at hfinish
          exact hleft.trans hfinish

/-- A component is replaced in its slot, or the entity moves to where there is one. -/
theorem put_upholds (w : World T V) (e : Entity) (a : Archetype T) (id : SlotId) (t : T)
    (value : V) : Upholds P w (match a.slot? w.registry t with
      | none => w.gain e a id t value
      | some slot =>
        match w.changeAt e a id slot fun _ => value with
        | (.error error, w) => (.error error, w)
        | (.ok old, w) => (.ok (), w.drop [old])).2 := by
  split
  · exact gain_upholds w e a id t value
  · rename_i slot _
    have hchange : Upholds P w _ := changeAt_upholds w e a id slot fun _ => value
    split
    · rename_i hrun
      rwa [hrun] at hchange
    · rename_i hrun
      rw [hrun] at hchange
      exact hchange.trans (drop_upholds _ _)

theorem add_upholds (w : World T V) (e : Entity) (t : T) (value : V) :
    Upholds P w (w.add e t value).2 := by
  unfold add
  split
  · rename_i hrun
    exact access_upholds (fun w a id => put_upholds w e a id t value) hrun
  · rename_i hrun
    exact (access_upholds (fun w a id => put_upholds w e a id t value) hrun).trans
      (drop_upholds _ _)

theorem remove_upholds (w : World T V) (e : Entity) (t : T) :
    Upholds P w (w.remove e t).2 := by
  refine access_upholds (fun w a id => ?_) rfl
  split
  · exact .refl w
  · exact lose_upholds w e a id t

theorem update_upholds (w : World T V) (e : Entity) (t : T) (f : V → V) :
    Upholds P w (w.update e t f).2 := by
  unfold update
  split
  all_goals
    rename_i hrun
    refine access_upholds (fun w a id => ?_) hrun
    split
    · exact .refl w
    · exact changeAt_upholds w e a id _ f

/-- Types are given their indices. -/
theorem register_upholds (w : World T V) (call : TypeRegistry.Call T) :
    Upholds P w
      { w with catalog := { w.catalog with registry := w.catalog.registry.perform call } } := by
  intro h
  obtain ⟨-, hext⟩ := TypeRegistry.perform_wf h.catalog.registry call
  exact ⟨⟨h.lasting, h.catalog.perform call, h.store, h.housed⟩,
    fun a ha => ⟨ha.wf.mono hext, ha.layout⟩, fun _ _ ha => ha, rfl⟩

theorem withMemory_upholds (w : World T V) (m : Memory) : Upholds P w (w.withMemory m) := by
  intro h
  have hkeyed := (h.catalog.perform (.memory m)).withStore (w.store.withMemory m)
  exact ⟨⟨h.lasting, hkeyed, h.lasting.withMemory h.store m, h.housed⟩,
    fun a ha => ⟨ha.wf.mono (.withMemory w.registry m), ha.layout⟩, fun _ _ ha => ha, rfl⟩

/-- Whatever happens to a world through its own operations. -/
theorem next_upholds (w : World T V) (event : Event T V) : Upholds P w (w.next event) := by
  cases event with
  | call c =>
    cases c with
    | create bundle => simpa [next, spawn] using spawnStated_upholds w bundle.types bundle
    | createAs stated bundle => simpa [next] using spawnStated_upholds w stated bundle
    | destroy e => exact destroy_upholds w e
    | add e t value => simpa [next] using add_upholds w e t value
    | remove e t => simpa [next] using remove_upholds w e t
    | read e t => exact .refl w
    | update e t f => exact update_upholds w e t f
    | has e t => exact .refl w
    | count => exact .refl w
    | memory m => exact withMemory_upholds w m
  | register t => exact register_upholds w (.register t)
  | node ts => exact ensureNode_upholds w ts
  | archetype ts => exact ensure_upholds w ts
  | spawnIn key bundle =>
    intro h
    unfold next
    dsimp only
    split
    · exact Upholds.refl w h
    · rename_i a ha
      exact spawnIn_upholds w (h.houses ha) bundle h

omit [DecidableEq T] in
/-- Links say nothing about rows. -/
theorem link_upholds (w : World T V) (source target : UInt64) :
    Upholds P w { w with catalog := w.catalog.link source target } := by
  intro h
  have hstore : (w.catalog.link source target).store = w.store := Catalog.store_modifyNode ..
  have hregistry : (w.catalog.link source target).registry = w.registry :=
    Catalog.registry_modifyNode ..
  refine ⟨⟨h.lasting, h.catalog.link source target, ?_, fun key a ha => ?_⟩,
    fun a ha => ⟨?_, ?_⟩, fun key a ha => (Catalog.archetype?_link ..).trans ha,
    congrArg RowStore.format hstore⟩
  · show P (w.catalog.link source target).store
    rw [hstore]
    exact h.store
  · show (w.catalog.link source target).store.layout? a.partition = some a.types
    rw [hstore]
    exact h.housed key a ((Catalog.archetype?_link ..).symm.trans ha)
  · show a.Wf (w.catalog.link source target).registry
    rw [hregistry]
    exact ha.wf
  · show (w.catalog.link source target).store.layout? a.partition = some a.types
    rw [hstore]
    exact ha.layout

end operations

end World

/-! ### Uses -/

/-- A world, with the ids of its rows that were issued and have no item yet. -/
structure SharedWorld (T V : Type) where
  world : World T V
  reserved : List SlotId

namespace SharedWorld

/-- One use of a world that shares its rows. -/
inductive Use (T V : Type) : Type 1 where
  | event (event : Event T V)
  /-- An entity is made in the archetype of types that are listed apart. -/
  | spawnAs (ts : List T) (bundle : Bundle T V)
  /-- Types are given their indices by themselves. -/
  | register (call : TypeRegistry.Call T)
  /-- The archetype of a node is asked for. -/
  | materialize (key : UInt64)
  | link (source target : UInt64)
  /-- An item is made that no row holds yet. -/
  | item (home : UInt64)
  /-- The rows are called past the world. -/
  | rows (call : RowStore.Call T V)

variable [DecidableEq T] [ComponentType T]

omit [DecidableEq T] [ComponentType T] in
/-- The rows, for calls past the world. -/
def pool (s : SharedWorld T V) : Pool T V := ⟨s.world.store, s.reserved⟩

omit [DecidableEq T] [ComponentType T] in
/-- A world that is all that there is. -/
def ofWorld (w : World T V) : SharedWorld T V := ⟨w, []⟩

/-- What a use leaves. -/
def next (s : SharedWorld T V) : Use T V → SharedWorld T V
  | .event event => { s with world := s.world.next event }
  | .spawnAs ts bundle => { s with world := (s.world.spawnAs ts bundle).2 }
  | .register call =>
    { s with world := { s.world with
        catalog := { s.world.catalog with registry := s.world.registry.perform call } } }
  | .materialize key =>
    { s with world := { s.world with catalog := (s.world.catalog.materialize key).2 } }
  | .link source target =>
    { s with world := { s.world with catalog := s.world.catalog.link source target } }
  | .item home => { s with world := (s.world.newEntity home).2 }
  | .rows call => ⟨s.world.withStore (s.pool.next call).store, (s.pool.next call).reserved⟩

/-- Only ids that are out are registered, every item is stored with a value for each column,
and the items of a world are made with a home. -/
def Allows (s : SharedWorld T V) : Use T V → Prop
  | .rows .newItem => False
  | .rows call => s.pool.Allows call ∧ s.world.store.Fills call
  | _ => True

/-- Each use is allowed when its turn comes. -/
def Orderly (s : SharedWorld T V) : List (Use T V) → Prop
  | [] => True
  | use :: rest => s.Allows use ∧ (s.next use).Orderly rest

/-- What is left after uses, the first one first. -/
def after (s : SharedWorld T V) (uses : List (Use T V)) : SharedWorld T V := uses.foldl next s

variable {s : SharedWorld T V}

/-- A use keeps what lasts of the rows, unless it calls them past the world. -/
theorem next_upholds (s : SharedWorld T V) (use : Use T V) :
    (∃ call, use = .rows call) ∨ (s.next use).reserved = s.reserved ∧
      ∀ P : RowStore T V → Prop, World.Upholds P s.world (s.next use).world := by
  cases use with
  | event event => exact .inr ⟨rfl, fun P => World.next_upholds s.world event⟩
  | spawnAs ts bundle => exact .inr ⟨rfl, fun P => World.spawnAs_upholds s.world ts bundle⟩
  | register call => exact .inr ⟨rfl, fun P => World.register_upholds s.world call⟩
  | materialize key => exact .inr ⟨rfl, fun P => World.materialize_upholds s.world key⟩
  | link source target => exact .inr ⟨rfl, fun P => World.link_upholds s.world source target⟩
  | item home => exact .inr ⟨rfl, fun P => World.newEntity_upholds s.world home⟩
  | rows call => exact .inl ⟨call, rfl⟩

/-! ### Any uses -/

/-- Links of chunks and columns of partitions survive any call of the rows. -/
theorem next_wired (h : s.world.Founded RowStore.Wired) (use : Use T V) :
    World.Upheld RowStore.Wired s.world (s.next use).world := by
  rcases s.next_upholds use with ⟨call, rfl⟩ | ⟨-, hupholds⟩
  · have hsettles := RowStore.perform_settles h.store call
    exact h.withRows h.lasting rfl hsettles.wired hsettles.retains
  · exact hupholds RowStore.Wired h

theorem after_wired (h : s.world.Founded RowStore.Wired) (uses : List (Use T V)) :
    World.Upheld RowStore.Wired s.world (s.after uses).world := by
  induction uses generalizing s with
  | nil => exact World.Upholds.refl s.world h
  | cons use rest ih =>
    have hfirst := next_wired h use
    exact hfirst.trans (ih hfirst.founded)

/-! ### Orderly uses -/

/-- A use that is allowed keeps the world regular. -/
theorem next_regular (h : s.world.Regular s.reserved) {use : Use T V} (hallows : s.Allows use) :
    (s.next use).world.Regular (s.next use).reserved := by
  rcases s.next_upholds use with ⟨call, rfl⟩ | ⟨hreserved, hupholds⟩
  · obtain ⟨hcall, hfills⟩ : s.pool.Allows call ∧ s.world.store.Fills call := by
      cases call with
      | newItem => exact hallows.elim
      | _ => exact hallows
    have hpool : s.pool.store.Regular s.pool.reserved := h.store
    obtain ⟨hstore, hretains⟩ := Pool.next_regular hpool hcall hfills
    -- No call of the rows takes a partition from an archetype.
    have hheld : World.Upheld (RowStore.Regular · (s.pool.next call).reserved) s.world
        (s.next (.rows call)).world :=
      h.withRows (RowStore.regular_lasting _) rfl hstore hretains
    exact hheld.founded
  · rw [hreserved]
    exact (hupholds _ h).founded

theorem Orderly.regular (h : s.world.Regular s.reserved) {uses : List (Use T V)}
    (horderly : s.Orderly uses) :
    (s.after uses).world.Regular (s.after uses).reserved := by
  induction uses generalizing s with
  | nil => exact h
  | cons use rest ih => exact ih (next_regular h horderly.1) horderly.2

/-! ### New worlds -/

omit [DecidableEq T] in
/-- A world begins with no archetypes and no rows. -/
theorem create_founded {P : RowStore T V → Prop} (hlasting : RowStore.Lasting P)
    (hempty : ∀ format : IdFormat, format.Valid → P (.empty format)) {number : Nat}
    {settings : Settings} {w : World T V} (h : World.create number settings = .ok w) :
    w.Founded P := by
  obtain ⟨c, hcatalog, rfl⟩ := World.create_eq h
  refine ⟨hlasting, Catalog.create_keyed hcatalog, ?_, fun key a ha => ?_⟩
  · obtain ⟨registry, format, -, hformat, rfl⟩ := Catalog.create_eq hcatalog
    exact hempty format (IdFormat.create_valid hformat)
  · rw [show c.archetype? key = none from World.create_archetype? h key] at ha
    cases ha

omit [DecidableEq T] in
theorem create_regular {number : Nat} {settings : Settings} {w : World T V}
    (h : World.create number settings = .ok w) : w.Regular [] :=
  create_founded (RowStore.regular_lasting []) (fun _ => RowStore.empty_regular) h

/-- Whatever is done with a world, it is regular. -/
theorem Orderly.regular_of_create {number : Nat} {settings : Settings} {w : World T V}
    (made : World.create number settings = .ok w) {uses : List (Use T V)}
    (horderly : (ofWorld w).Orderly uses) :
    ((ofWorld w).after uses).world.Regular ((ofWorld w).after uses).reserved :=
  horderly.regular (create_regular made)

end SharedWorld

end ArchetypeStore

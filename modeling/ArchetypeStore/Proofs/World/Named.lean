import ArchetypeStore.Proofs.RowStore.Named
import ArchetypeStore.Proofs.World.Shared

/-! # Entities that carry the ids of their rows

  The operations of a world store an item only while no row holds it: a new one, or one that
  was just taken out of its row. Flags are put on an item only then as well. So the items
  of a world carry the ids of their rows, whatever else its rows are used for, as long as
  callers who work past the world do the same.
-/

namespace ArchetypeStore

variable {T V : Type}

namespace World

variable [ComponentType T]

/-- A step that leaves a regular world regular, with items that carry the ids of their rows. -/
def Relabels (reserved : List SlotId) (w w' : World T V) : Prop :=
  w.Regular reserved → w.store.Named → w'.Regular reserved ∧ w'.store.Named

namespace Relabels

variable {reserved : List SlotId} {w w' w'' : World T V}

theorem refl (w : World T V) : Relabels reserved w w := fun h hnamed => ⟨h, hnamed⟩

theorem trans (h : Relabels reserved w w') (h' : Relabels reserved w' w'') :
    Relabels reserved w w'' := fun hw hnamed => h' (h hw hnamed).1 (h hw hnamed).2

theorem of_store_eq (hupholds : Upholds (RowStore.Regular · reserved) w w')
    (hstore : w'.store = w.store) : Relabels reserved w w' :=
  fun h hnamed => ⟨(hupholds h).founded, hstore ▸ hnamed⟩

end Relabels

/-! ### Moves -/

section moves

variable {reserved : List SlotId}

theorem drop_relabels (w : World T V) (values : List V) :
    Relabels reserved w (w.drop values) := .of_store_eq (drop_upholds w values) rfl

omit [ComponentType T] in
/-- A flag is put on an item that no row holds. -/
theorem flag_named {w : World T V} (hnamed : w.store.Named) {e : Entity}
    (hidle : w.store.Idle e.item) (f : SlotId → SlotId) : (w.flag e f).store.Named :=
  hnamed.setId hidle _

theorem newEntity_relabels (w : World T V) (home : UInt64) :
    Relabels reserved w (w.newEntity home).2 :=
  fun h hnamed => ⟨(newEntity_upholds w home h).founded, hnamed.newItem⟩

omit [ComponentType T] in
/-- No row holds an item that was just made. -/
theorem idle_newEntity {w : World T V} (hnamed : w.store.Named) (home : UInt64) :
    (w.newEntity home).2.store.Idle (w.newEntity home).1.item ∧
      (w.newEntity home).1.item < (w.newEntity home).2.store.ids.size := by
  constructor
  · intro c r cell hcell
    exact Nat.ne_of_lt (hnamed c r cell hcell).1
  · show w.store.ids.size < (w.store.ids.push 0).size
    rw [Array.size_push]
    exact Nat.lt_succ_self _

/-- An item that a check let go is in no row any more. -/
theorem evict_relabels {α : Type} {w : World T V} (h : w.Regular reserved)
    (hnamed : w.store.Named) {e : Entity} (partition : Nat) (id : SlotId)
    {accept : RowView V → Except StoreError α}
    (haccept : ∀ v a, accept v = .ok a → holds e v = true) :
    (w.store.evict partition id accept).2.Named ∧
      ∀ evicted, (w.store.evict partition id accept).1 = .ok evicted →
        (w.store.evict partition id accept).2.Idle e.item ∧
          e.item < (w.store.evict partition id accept).2.ids.size := by
  cases hevict : w.store.evict partition id accept with
  | mk answer store =>
    cases answer with
    | error error =>
      obtain ⟨halike, -, -⟩ := RowStore.evict_error h.store.toSound hevict
      exact ⟨hnamed.alike halike, fun evicted hok => nomatch hok⟩
    | ok evicted =>
      obtain ⟨chunk, row, given, cell, -, hcell, hok, -, -, -, -, hvacated, -⟩ :=
        RowStore.evict_ok h.store.toSound hevict
      obtain ⟨hnamed', hidle, hsize⟩ := hnamed.vacated h.store.toChained hcell hvacated
      refine ⟨hnamed', fun _ _ => ?_⟩
      -- The check looked at the item of the row.
      have hholds := haccept _ _ hok
      have hitem : cell.item = e.item := by
        simpa [holds, RowStore.view, hcell] using hholds
      rw [← hitem]
      exact ⟨hidle, by rw [hsize]; exact (hnamed chunk row cell hcell).1⟩

theorem changeAt_relabels (w : World T V) (e : Entity) (a : Archetype T) (id : SlotId)
    (slot : Nat) (f : V → V) : Relabels reserved w (w.changeAt e a id slot f).2 := by
  intro h hnamed
  refine ⟨(changeAt_upholds w e a id slot f h).founded, ?_⟩
  unfold changeAt
  split
  · exact hnamed
  · rename_i v values hvalues
    obtain ⟨-, hcell⟩ := cell_of_valuesAt hvalues
    split
    · exact hnamed
    · exact hnamed.setCell hcell rfl

theorem access_relabels {α : Type} {w w' : World T V} {e : Entity} {body : Body T V α}
    {answer : Except StoreError α}
    (hbody : ∀ (w : World T V) a id, Relabels reserved w (body w a id).2)
    (h : w.access e body = (answer, w')) : Relabels reserved w w' :=
  access_relates .refl .trans hbody h

theorem destroy_relabels (w : World T V) (e : Entity) : Relabels reserved w (w.destroy e).2 := by
  unfold destroy
  split
  all_goals
    rename_i hrun
    refine access_relabels (fun w a id h hnamed => ?_) hrun
    -- The check agrees to no row but that of the entity.
    have haccept : ∀ (v : RowView V) answer,
        (if holds e v && w.isAtRest e v then (.ok () : Except StoreError Unit)
          else .error .entityNotFound) = .ok answer → holds e v = true := by
      intro v answer hok
      split at hok
      · rename_i hboth
        exact (Bool.and_eq_true_iff.mp hboth).1
      · cases hok
    have hupholds : Upheld (RowStore.Regular · reserved) w _ := evict_upholds w a.partition id
      (fun v => if holds e v && w.isAtRest e v then (.ok () : Except StoreError Unit)
        else .error .entityNotFound) h
    have hevict := evict_relabels h hnamed a.partition id haccept
    split
    · rename_i hevicted
      rw [hevicted] at hevict hupholds
      exact ⟨hupholds.founded, hevict.1⟩
    · rename_i evicted store hevicted
      rw [hevicted] at hevict hupholds
      have hflagged := (flag_upholds (w.withStore store) e SlotId.detach).trans
        (drop_upholds _ evicted.values) hupholds.founded
      exact ⟨hflagged.founded, flag_named (w := w.withStore store) hevict.1 (hevict.2 _ rfl).1 _⟩

/-- The components leave the row of the entity, and no row holds it then. -/
theorem moveOut_relabels {w : World T V} (h : w.Regular reserved) (hnamed : w.store.Named)
    (e : Entity) (a : Archetype T) (id : SlotId) :
    (w.moveOut e a id).2.store.Named ∧ ∀ carried, (w.moveOut e a id).1 = .ok carried →
      (w.moveOut e a id).2.store.Idle e.item ∧
        e.item < (w.moveOut e a id).2.store.ids.size := by
  have haccept : ∀ (v : RowView V) answer,
      (if holds e v then do
          allocateAll w.store.memory a.types
          if w.isAtRest e v then (.ok () : Except StoreError Unit) else .error .entityNotFound
        else .error .entityNotFound) = .ok answer → holds e v = true := by
    intro v answer hok
    split at hok
    · assumption
    · cases hok
  have hevict := evict_relabels h hnamed a.partition id haccept
  unfold moveOut
  split
  · rename_i hevicted
    rw [hevicted] at hevict
    exact ⟨hevict.1, fun carried hok => nomatch hok⟩
  · rename_i evicted store hevicted
    rw [hevicted] at hevict
    obtain ⟨hidle, hlt⟩ := hevict.2 _ rfl
    refine ⟨flag_named (w := w.withStore store) hevict.1 hidle _, fun carried _ => ⟨hidle, ?_⟩⟩
    show e.item < (store.setId e.item _).ids.size
    rwa [RowStore.itemCount_setId]

end moves

/-! ### Operations -/

section operations

variable [DecidableEq T] {reserved : List SlotId}

omit [DecidableEq T] in
/-- A new partition holds no item. -/
theorem newPartition_named {s s' : RowStore T V} {layout : List T} {partition : Nat}
    (hnamed : s.Named) (hnew : s.newPartition layout = (.ok partition, s')) : s'.Named := by
  obtain ⟨-, -, hadds, -⟩ := RowStore.newPartition_ok hnew
  exact hnamed.same hadds.format hadds.cell? hadds.ids

omit [DecidableEq T] in
theorem materialize_relabels (w : World T V) (key : UInt64) :
    Relabels reserved w { w with catalog := (w.catalog.materialize key).2 } := by
  intro h hnamed
  refine ⟨(materialize_upholds w key h).founded, ?_⟩
  show (w.catalog.materialize key).2.store.Named
  rcases Catalog.materialize_cases w.catalog key with ⟨-, hmat⟩ | ⟨a, -, hmat⟩ |
    ⟨n, e, -, -, -, hmat⟩ | ⟨n, partition, store, -, -, hnew, hmat⟩
  · rw [hmat]
    exact hnamed
  · rw [hmat]
    exact hnamed
  · rw [hmat]
    exact hnamed
  · rw [hmat, Catalog.store_give]
    exact newPartition_named hnamed hnew

theorem ensureNode_relabels (w : World T V) (ts : List T) :
    Relabels reserved w { w with catalog := (w.catalog.ensureNode ts).2 } := by
  intro h hnamed
  refine Relabels.of_store_eq (ensureNode_upholds w ts) ?_ h hnamed
  exact (Catalog.ensureNode_adds h.catalog.registry ts).store

theorem ensure_relabels (w : World T V) (ts : List T) :
    Relabels reserved w { w with catalog := (w.catalog.ensure ts).2 } := by
  have hnode : Relabels reserved w _ := ensureNode_relabels w ts
  unfold Catalog.ensure
  cases hanswer : w.catalog.ensureNode ts with
  | mk answer c =>
    rw [hanswer] at hnode
    cases answer with
    | error e => exact hnode
    | ok key => exact hnode.trans (materialize_relabels { w with catalog := c } key)

/-- An item that no row holds is stored, or nothing happens. -/
theorem moveIn_relabels {w : World T V} (h : w.Regular reserved) (hnamed : w.store.Named)
    (a : Archetype T) {item : Nat} (hidle : w.store.Idle item) (hlt : item < w.store.ids.size)
    (components : Bundle T V) :
    (w.moveIn a item components).2.store.Named ∧
      ∀ error, (w.moveIn a item components).1 = .error error →
        (w.moveIn a item components).2.store = w.store := by
  unfold moveIn
  split
  · exact ⟨hnamed, fun _ _ => rfl⟩
  · rename_i ordered _
    cases hinsert : w.store.insert a.partition item (Bundle.values ordered) with
    | mk answer store =>
      cases answer with
      | error error =>
        obtain rfl := RowStore.insert_stays h.store.toSound hinsert
        exact ⟨hnamed, fun _ _ => rfl⟩
      | ok id =>
        obtain ⟨chunk, row, -, -, -, hstored, -⟩ := RowStore.insert_ok h.store.toSound hinsert
        exact ⟨hnamed.stored hstored hidle hlt, fun _ hok => nomatch hok⟩

theorem spawnIn_relabels (w : World T V) {a : Archetype T} (ha : w.Houses a)
    (bundle : Bundle T V) : Relabels reserved w (w.spawnIn a bundle).2 := by
  intro h hnamed
  refine ⟨(spawnIn_upholds w ha bundle h).founded, ?_⟩
  obtain ⟨hregular, hnew⟩ := newEntity_relabels w a.key h hnamed
  obtain ⟨hidle, hlt⟩ := idle_newEntity hnamed a.key
  obtain ⟨hmoved, hstays⟩ := moveIn_relabels hregular hnew a hidle hlt bundle
  unfold spawnIn
  dsimp only
  split
  · exact hmoved
  · rename_i error _ hoffer
    -- The bundle is refused as it was in the store, which is the one with the new item.
    have hanswer : ((w.newEntity a.key).2.moveIn a (w.newEntity a.key).1.item bundle).1 =
        .error error := by
      unfold Bundle.offer at hoffer
      split at hoffer
      · cases hoffer
      · rename_i herror
        cases hoffer
        exact herror
    have hstore := hstays error hanswer
    show RowStore.Named (RowStore.dropLastItem _)
    rw [show World.store _ = _ from hstore]
    refine hnew.dropLastItem ?_
    have hlast : (w.newEntity a.key).2.store.ids.size - 1 = (w.newEntity a.key).1.item := by
      show (w.store.ids.push 0).size - 1 = w.store.ids.size
      rw [Array.size_push, Nat.add_sub_cancel]
    rw [hlast]
    exact hidle

theorem archetypeOfBundle_relabels (w : World T V) (ts : List T) :
    Relabels reserved w (w.archetypeOfBundle ts).2 := by
  have hensure : Relabels reserved w _ := ensure_relabels w ts
  unfold archetypeOfBundle
  split
  · exact .refl w
  · split
    all_goals
      rename_i hrun
      rw [hrun] at hensure
      exact hensure.trans (.of_store_eq (.of_catalog_eq rfl) rfl)

theorem spawnStated_relabels (w : World T V) (stated : List T) (bundle : Bundle T V) :
    Relabels reserved w (w.spawnStated stated bundle).2 := by
  intro h
  have hfound : Relabels reserved w _ := archetypeOfBundle_relabels w stated
  unfold spawnStated
  split
  · rename_i hrun
    rw [hrun] at hfound
    exact hfound.trans (drop_relabels _ _) h
  · rename_i a w' hrun
    have ha := houses_of_bundle h hrun
    rw [hrun] at hfound
    exact hfound.trans (spawnIn_relabels w' ha bundle) h

theorem spawnAs_relabels (w : World T V) (ts : List T) (bundle : Bundle T V) :
    Relabels reserved w (w.spawnAs ts bundle).2 := by
  intro h
  have hensure : Relabels reserved w _ := ensure_relabels w ts
  unfold spawnAs
  split
  · rename_i hrun
    rw [hrun] at hensure
    exact hensure.trans (drop_relabels _ _) h
  · rename_i a catalog hrun
    have ha := houses_of_ensure h hrun
    rw [hrun] at hensure
    exact hensure.trans (spawnIn_relabels _ ha bundle) h

/-- The components of an entity that no row holds go into a row of the target. -/
theorem finishMove_relabels {w : World T V} (h : w.Regular reserved) (hnamed : w.store.Named)
    {e : Entity} (hidle : w.store.Idle e.item) (hlt : e.item < w.store.ids.size)
    {target : Archetype T} (ha : w.Houses target) (carried gained : Bundle T V) :
    (w.finishMove e target carried gained).2.Regular reserved ∧
      (w.finishMove e target carried gained).2.store.Named := by
  refine ⟨(finishMove_upholds w e ha carried gained h).founded, ?_⟩
  obtain ⟨hmoved, hstays⟩ := moveIn_relabels h hnamed target hidle hlt (carried ++ gained)
  unfold finishMove
  split
  · rename_i hrun
    rwa [hrun] at hmoved
  · rename_i error w' hrun
    rw [hrun] at hstays
    -- The item found no row, so it is still in none when its id word changes.
    have hstore : w'.store = w.store := hstays error rfl
    rw [← hstore] at hnamed hidle
    exact flag_named hnamed hidle _

/-- Once the target of a move is there, the components leave their row. -/
theorem moveOut_relabels_of_ensure {w w' : World T V} (h : w.Regular reserved)
    (hnamed : w.store.Named) {ts : List T} {target : Archetype T} {catalog : Catalog T V}
    (hensure : w.catalog.ensure ts = (.ok target, catalog)) {e : Entity} {a : Archetype T}
    {id : SlotId} {answer : Except StoreError (Bundle T V)}
    (hout : World.moveOut { w with catalog } e a id = (answer, w')) :
    w'.store.Named ∧ ∀ carried, answer = .ok carried →
      w'.store.Idle e.item ∧ e.item < w'.store.ids.size := by
  obtain ⟨hregular, hready⟩ := ensure_relabels w ts h hnamed
  rw [hensure] at hregular hready
  have hmoved := moveOut_relabels hregular hready e a id
  rwa [hout] at hmoved

theorem gain_relabels (w : World T V) (e : Entity) (a : Archetype T) (id : SlotId) (t : T)
    (value : V) : Relabels reserved w (w.gain e a id t value).2 := by
  intro h hnamed
  unfold gain
  split
  · rename_i hensure
    have hasked := ensure_relabels w (a.types ++ [t]) h hnamed
    rwa [hensure] at hasked
  · rename_i target catalog hensure
    split
    · rename_i hout
      exact ⟨(moveOut_of_ensure h hensure hout).1.founded,
        (moveOut_relabels_of_ensure h hnamed hensure hout).1⟩
    · rename_i carried w' hout
      obtain ⟨hleft, htarget⟩ := moveOut_of_ensure h hensure hout
      obtain ⟨hmoved, hidle⟩ := moveOut_relabels_of_ensure h hnamed hensure hout
      obtain ⟨hnowhere, hlt⟩ := hidle carried rfl
      exact finishMove_relabels hleft.founded hmoved hnowhere hlt htarget carried [(t, value)]

theorem lose_relabels (w : World T V) (e : Entity) (a : Archetype T) (id : SlotId) (t : T) :
    Relabels reserved w (w.lose e a id t).2 := by
  intro h hnamed
  unfold lose
  split
  · rename_i hensure
    have hasked := ensure_relabels w (a.types.filter (· ≠ t)) h hnamed
    rwa [hensure] at hasked
  · rename_i target catalog hensure
    split
    · rename_i hout
      exact ⟨(moveOut_of_ensure h hensure hout).1.founded,
        (moveOut_relabels_of_ensure h hnamed hensure hout).1⟩
    · rename_i carried w' hout
      obtain ⟨hleft, htarget⟩ := moveOut_of_ensure h hensure hout
      obtain ⟨hmoved, hidle⟩ := moveOut_relabels_of_ensure h hnamed hensure hout
      obtain ⟨hnowhere, hlt⟩ := hidle carried rfl
      split
      · exact drop_relabels w' _ hleft.founded hmoved
      · obtain ⟨hdone, hplaced⟩ := finishMove_relabels hleft.founded hmoved hnowhere hlt htarget
          (carried.eraseP (·.1 == t)) []
        split
        · rename_i hrun
          rw [hrun] at hdone hplaced
          exact drop_relabels _ _ hdone hplaced
        · rename_i hrun
          rw [hrun] at hdone hplaced
          exact ⟨hdone, hplaced⟩

/-- A component is replaced in its slot, or the entity moves to where there is one. -/
theorem put_relabels (w : World T V) (e : Entity) (a : Archetype T) (id : SlotId) (t : T)
    (value : V) : Relabels reserved w (match a.slot? w.registry t with
      | none => w.gain e a id t value
      | some slot =>
        match w.changeAt e a id slot fun _ => value with
        | (.error error, w) => (.error error, w)
        | (.ok old, w) => (.ok (), w.drop [old])).2 := by
  split
  · exact gain_relabels w e a id t value
  · rename_i slot _
    have hchange : Relabels reserved w _ := changeAt_relabels w e a id slot fun _ => value
    split
    · rename_i hrun
      rwa [hrun] at hchange
    · rename_i hrun
      rw [hrun] at hchange
      exact hchange.trans (drop_relabels _ _)

theorem add_relabels (w : World T V) (e : Entity) (t : T) (value : V) :
    Relabels reserved w (w.add e t value).2 := by
  unfold add
  split
  · rename_i hrun
    exact access_relabels (fun w a id => put_relabels w e a id t value) hrun
  · rename_i hrun
    exact (access_relabels (fun w a id => put_relabels w e a id t value) hrun).trans
      (drop_relabels _ _)

theorem remove_relabels (w : World T V) (e : Entity) (t : T) :
    Relabels reserved w (w.remove e t).2 := by
  refine access_relabels (fun w a id => ?_) rfl
  split
  · exact .refl w
  · exact lose_relabels w e a id t

theorem update_relabels (w : World T V) (e : Entity) (t : T) (f : V → V) :
    Relabels reserved w (w.update e t f).2 := by
  unfold update
  split
  all_goals
    rename_i hrun
    refine access_relabels (fun w a id => ?_) hrun
    split
    · exact .refl w
    · exact changeAt_relabels w e a id _ f

theorem next_relabels (w : World T V) (event : Event T V) :
    Relabels reserved w (w.next event) := by
  cases event with
  | call c =>
    cases c with
    | create bundle => simpa [next, spawn] using spawnStated_relabels w bundle.types bundle
    | createAs stated bundle => simpa [next] using spawnStated_relabels w stated bundle
    | destroy e => exact destroy_relabels w e
    | add e t value => simpa [next] using add_relabels w e t value
    | remove e t => simpa [next] using remove_relabels w e t
    | read e t => exact .refl w
    | update e t f => exact update_relabels w e t f
    | has e t => exact .refl w
    | count => exact .refl w
    | memory m =>
      exact fun h hnamed =>
        ⟨(withMemory_upholds w m h).founded, hnamed.same rfl (fun _ _ => rfl) rfl⟩
  | register t => exact .of_store_eq (register_upholds w (.register t)) rfl
  | node ts => exact ensureNode_relabels w ts
  | archetype ts => exact ensure_relabels w ts
  | spawnIn key bundle =>
    intro h
    unfold next
    dsimp only
    split
    · exact Relabels.refl w h
    · rename_i a ha
      exact spawnIn_relabels w (h.houses ha) bundle h

end operations

end World

namespace SharedWorld

variable [DecidableEq T] [ComponentType T] {s : SharedWorld T V}

/-! ### Runs -/

/-- Past the world, an item is stored or given an id only while no row holds it. -/
def Careful (s : SharedWorld T V) : Use T V → Prop
  | .rows (.setId item _) => s.world.store.Idle item
  | .rows (.occupy _ _ item _) | .rows (.insert _ item _) =>
    s.world.store.Idle item ∧ item < s.world.store.ids.size
  | _ => True

/-- Each use is careful when its turn comes. -/
def CarefulRun (s : SharedWorld T V) : List (Use T V) → Prop
  | [] => True
  | use :: rest => s.Careful use ∧ (s.next use).CarefulRun rest

omit [DecidableEq T] in
/-- Rows are issued, emptied and written past the world. -/
theorem rows_named (h : s.world.Regular s.reserved) (hnamed : s.world.store.Named)
    {call : RowStore.Call T V} (hallows : s.Allows (.rows call))
    (hcareful : s.Careful (.rows call)) : (s.pool.next call).store.Named := by
  have hsound : s.pool.store.Sound s.pool.reserved := h.store.toSound
  cases call with
  | newPartition layout =>
    show (s.world.store.newPartition layout).2.Named
    cases hnew : s.world.store.newPartition layout with
    | mk answer store =>
      cases answer with
      | error e =>
        obtain ⟨rfl, -⟩ := RowStore.newPartition_error hnew
        exact hnamed
      | ok partition => exact World.newPartition_named hnamed hnew
  | newItem => exact hallows.elim
  | setId item id => exact hnamed.setId hcareful id
  | memory m => exact hnamed.same rfl (fun _ _ => rfl) rfl
  | issue partition =>
    cases hissue : s.pool.store.issue partition with
    | mk answer store =>
      cases answer with
      | error e =>
        obtain rfl := RowStore.issue_stays hsound hissue
        rw [Pool.next_issue_error hissue]
        exact hnamed
      | ok id =>
        obtain ⟨chunk, row, -, hissued, -⟩ := RowStore.issue_ok hsound hissue
        rw [Pool.next_issue hissue]
        exact hnamed.same hissued.steady.format hissued.cell hissued.ids
  | occupy partition id item values =>
    rcases Pool.occupy_cases hsound hallows.1 partition item values with hrefused |
      ⟨chunk, row, store, -, -, -, hok, -, hstored⟩
    · rw [Pool.next_occupy_error hrefused]
      exact hnamed
    · rw [Pool.next_occupy hok]
      exact RowStore.Named.stored hnamed hstored hcareful.1 hcareful.2
  | insert partition item values =>
    show (s.world.store.insert partition item values).2.Named
    cases hinsert : s.world.store.insert partition item values with
    | mk answer store =>
      cases answer with
      | error e =>
        obtain rfl := RowStore.insert_stays hsound hinsert
        exact hnamed
      | ok id =>
        obtain ⟨chunk, row, -, -, -, hstored, -⟩ := RowStore.insert_ok hsound hinsert
        exact hnamed.stored hstored hcareful.1 hcareful.2
  | evict partition id accept =>
    show (s.world.store.evict partition id accept).2.Named
    cases hevict : s.world.store.evict partition id accept with
    | mk answer store =>
      cases answer with
      | error e =>
        obtain ⟨halike, -, -⟩ := RowStore.evict_error hsound hevict
        exact hnamed.alike halike
      | ok evicted =>
        obtain ⟨chunk, row, given, cell, -, hcell, -, -, -, -, -, hvacated, -⟩ :=
          RowStore.evict_ok hsound hevict
        exact (hnamed.vacated hsound.toChained hcell hvacated).1
  | row partition id => exact hnamed
  | rewrite partition id f =>
    show (s.world.store.rewrite partition id f).2.Named
    unfold RowStore.rewrite
    split
    · exact hnamed
    · rename_i v hrow
      split
      · exact hnamed
      · rename_i cell hv
        exact hnamed.setCell ((RowStore.of_row hrow).2.trans hv) rfl

theorem next_named (h : s.world.Regular s.reserved) (hnamed : s.world.store.Named)
    {use : Use T V} (hallows : s.Allows use) (hcareful : s.Careful use) :
    (s.next use).world.store.Named := by
  cases use with
  | event event => exact (World.next_relabels s.world event h hnamed).2
  | spawnAs ts bundle => exact (World.spawnAs_relabels s.world ts bundle h hnamed).2
  | register call => exact hnamed
  | materialize key => exact (World.materialize_relabels s.world key h hnamed).2
  | link source target =>
    show (s.world.catalog.link source target).store.Named
    rw [Catalog.link, Catalog.store_modifyNode]
    exact hnamed
  | item home => exact hnamed.newItem
  | rows call => exact rows_named h hnamed hallows hcareful

theorem CarefulRun.named (h : s.world.Regular s.reserved) (hnamed : s.world.store.Named)
    {uses : List (Use T V)} (horderly : s.Orderly uses) (hcareful : s.CarefulRun uses) :
    (s.after uses).world.store.Named := by
  induction uses generalizing s with
  | nil => exact hnamed
  | cons use rest ih =>
    exact ih (next_regular h horderly.1) (next_named h hnamed horderly.1 hcareful.1) horderly.2
      hcareful.2

omit [DecidableEq T] [ComponentType T] in
theorem create_named {number : Nat} {settings : Settings} {w : World T V}
    (h : World.create number settings = .ok w) : w.store.Named := by
  obtain ⟨c, hcatalog, rfl⟩ := World.create_eq h
  obtain ⟨registry, format, -, -, rfl⟩ := Catalog.create_eq hcatalog
  exact RowStore.Named.empty format

end SharedWorld

end ArchetypeStore

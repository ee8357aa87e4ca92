import ArchetypeStore.Proofs.Archetype.Fitting
import ArchetypeStore.Proofs.World.Atomic
import ArchetypeStore.Proofs.World.Checked
import ArchetypeStore.Proofs.World.Refusals

/-! # How exhaustion is reported

  An operation of a world is refused because an entity or a component is not there, because
  components do not fit, or because there is no room. The settings are blamed only where the
  archetype of a new component set needs a column that no layout has. An entity whose archetype
  is there has columns for its types, so it can be refused no type but one that it gains.
-/

namespace ArchetypeStore

open ComponentType (Aligned Unlaid columnError)

variable {T V : Type} [ComponentType T]

/-! ### Errors -/

/-- The error says that the settings were rejected. -/
def StoreError.OfSettings (e : StoreError) : Prop := ∃ text, e = .invalidConfig text

/-- Only a column without a layout, for one of the types, is reported like a rejected setting. -/
def StoreError.BlamesColumn (capacity : Nat) (ts : List T) (e : StoreError) : Prop :=
  e.OfSettings → e = Layout.invalid ∧ ∃ t ∈ ts, Unlaid t capacity

theorem StoreError.BlamesColumn.of_not {capacity : Nat} {ts : List T} {e : StoreError}
    (h : ¬ e.OfSettings) : e.BlamesColumn capacity ts := fun hsettings => absurd hsettings h

theorem StoreError.entityNotFound_not_ofSettings : ¬ entityNotFound.OfSettings := by
  rintro ⟨text, htext⟩
  cases htext

theorem StoreError.allocationFailed_not_ofSettings (bytes : Nat) :
    ¬ (allocationFailed bytes).OfSettings := by
  rintro ⟨text, htext⟩
  cases htext

theorem StoreError.componentNotFound_not_ofSettings (name : String) :
    ¬ (componentNotFound name).OfSettings := by
  rintro ⟨text, htext⟩
  cases htext

/-- Components are refused by name. -/
theorem Archetype.reorder_not_ofSettings {α : Type} [DecidableEq T] {a : Archetype T}
    {registry : TypeRegistry T} (hwf : a.Wf registry) (hreg : registry.Wf)
    {components : List (T × α)} {e : StoreError}
    (h : (a.reorder registry components).1 = .error e) : ¬ e.OfSettings := by
  have hexact := hwf.reordersExactly hreg components
  rintro ⟨text, rfl⟩
  cases hfind : components.find? (fun component => component.1 ∉ a.types) with
  | some component =>
    have hforeign := hexact.foreign component hfind
    rw [h] at hforeign
    cases hforeign
  | none =>
    have hmem : ∀ component ∈ components, component.1 ∈ a.types := by
      simpa using List.find?_eq_none.mp hfind
    by_cases hnodup : (Bundle.types components).Nodup
    · have hperm : ¬ (Bundle.types components).Perm a.types := by
        intro hperm
        rw [hexact.accepted.mpr hperm] at h
        cases h
      obtain ⟨t, -, hmissing⟩ := hexact.missing hmem hnodup hperm
      rw [h] at hmissing
      cases hmissing
    · obtain ⟨t, -, htwice⟩ := hexact.twice hmem hnodup
      rw [h] at htwice
      cases htwice

namespace World

variable {reserved : List SlotId} {w : World T V} {a : Archetype T}

/-! ### Operations on entities -/

section operations

variable [DecidableEq T] {α : Type} {e : Entity} {error : StoreError}

omit [DecidableEq T] [ComponentType T] in
theorem valuesAt_notFound {a : Archetype T} {id : SlotId}
    (h : w.valuesAt e a id = .error error) : error = .entityNotFound := by
  unfold valuesAt RowStore.row at h
  split at h
  · rename_i hrow
    split at hrow
    · cases hrow
      cases h
      rfl
    · cases hrow
  · split at h
    · cases h
      rfl
    · split at h
      · cases h
      · cases h
        rfl

omit [DecidableEq T] [ComponentType T] in
theorem changeAt_notFound {a : Archetype T} {id : SlotId} {slot : Nat} {f : V → V}
    (h : (w.changeAt e a id slot f).1 = .error error) : error = .entityNotFound := by
  unfold changeAt at h
  split at h
  · rename_i hvalues
    cases h
    exact valuesAt_notFound hvalues
  · split at h
    · cases h
      rfl
    · cases h

omit [DecidableEq T] in
/-- Components leave their row unless the entity is no longer there, or the memory refuses what
that takes. -/
theorem moveOut_not_ofSettings (h : w.Regular reserved) {id : SlotId}
    (hout : (w.moveOut e a id).1 = .error error) : ¬ error.OfSettings := by
  unfold moveOut at hout
  split at hout
  · rename_i hevict
    cases hout
    obtain ⟨-, -, hwhy⟩ := RowStore.evict_error h.store.toSound hevict
    rcases hwhy with ⟨rfl, -⟩ | ⟨hlacks, -⟩ | ⟨chunk, row, -, hrefused⟩
    · exact StoreError.entityNotFound_not_ofSettings
    · obtain ⟨bytes, rfl⟩ := hlacks.failed h.store.toSound
      exact StoreError.allocationFailed_not_ofSettings bytes
    · split at hrefused
      · cases hmemory : allocateAll w.store.memory a.types with
        | error error' =>
          rw [hmemory] at hrefused
          cases hrefused
          obtain ⟨bytes, rfl⟩ := allocateAll_failed hmemory
          exact StoreError.allocationFailed_not_ofSettings bytes
        | ok =>
          simp only [hmemory, bind, Except.bind] at hrefused
          split at hrefused
          · cases hrefused
          · cases hrefused
            exact StoreError.entityNotFound_not_ofSettings
      · cases hrefused
        exact StoreError.entityNotFound_not_ofSettings
  · cases hout

/-- Components are put into a row unless they are not those of the archetype, or the chunk numbers
or the memory are used up. -/
theorem moveIn_not_ofSettings (h : w.Regular reserved) (ha : w.Houses a) {item : Nat}
    {components : Bundle T V} (hmove : (w.moveIn a item components).1 = .error error) :
    ¬ error.OfSettings := by
  unfold moveIn at hmove
  split at hmove
  · rename_i hreorder
    cases hmove
    exact Archetype.reorder_not_ofSettings ha.wf h.catalog.registry (congrArg Prod.fst hreorder)
  · rename_i ordered hreorder
    cases hinsert : w.store.insert a.partition item (Bundle.values ordered) with
    | mk answer store =>
      rw [hinsert] at hmove
      cases hmove
      obtain ⟨-, ⟨rfl, -⟩ | hrefused⟩ := RowStore.insert_error h.store.toSound ha.layout hinsert
      · rintro ⟨text, htext⟩
        cases htext
      · obtain ⟨bytes, rfl⟩ := RowStore.allocateChunk_failed h.store.valid.rows_lt
          (fun t ht => h.laidOut ha ht) hrefused
        exact StoreError.allocationFailed_not_ofSettings bytes

theorem spawnIn_not_ofSettings (h : w.Regular reserved) (ha : w.Houses a) {bundle : Bundle T V}
    (hspawn : (w.spawnIn a bundle).1 = .error error) : ¬ error.OfSettings := by
  have hmade := newEntity_upholds w a.key h
  unfold spawnIn at hspawn
  dsimp only at hspawn
  cases hmove : (w.newEntity a.key).2.moveIn a (w.newEntity a.key).1.item bundle with
  | mk answer moved =>
    rw [hmove] at hspawn
    cases answer with
    | ok id => cases hspawn
    | error e =>
      cases hspawn
      exact moveIn_not_ofSettings hmade.founded (hmade.houses a ha) (congrArg Prod.fst hmove)

theorem finishMove_not_ofSettings (h : w.Regular reserved) (ha : w.Houses a)
    {carried gained : Bundle T V} (hmove : (w.finishMove e a carried gained).1 = .error error) :
    ¬ error.OfSettings := by
  unfold finishMove at hmove
  split at hmove
  · cases hmove
  · rename_i hrun
    cases hmove
    exact moveIn_not_ofSettings h ha (congrArg Prod.fst hrun)

/-- A request for a component set blames no more than the columns of its types. -/
theorem Regular.ensure_blames (h : w.Regular reserved) (haligned : Aligned T) {ts : List T}
    (hrefused : (w.catalog.ensure ts).1 = .error error) :
    error.BlamesColumn w.store.format.rowsPerChunk ts := by
  rintro ⟨text, rfl⟩
  rcases (h.reports haligned).refused ts _ hrefused with hfatal | ⟨t, -, hname⟩ | hlayout
  · cases hfatal
  · cases hname
  · exact hlayout

theorem spawnStated_blames (h : w.Regular reserved) (haligned : Aligned T) {stated : List T}
    {bundle : Bundle T V} (hspawn : (w.spawnStated stated bundle).1 = .error error) :
    error.BlamesColumn w.store.format.rowsPerChunk stated := by
  have hupheld := archetypeOfBundle_upholds w stated h
  unfold spawnStated at hspawn
  split at hspawn
  · rename_i hfound
    cases hspawn
    unfold archetypeOfBundle at hfound
    split at hfound
    · cases hfound
    · split at hfound
      · rename_i hensure
        cases hfound
        exact h.ensure_blames haligned (congrArg Prod.fst hensure)
      · cases hfound
  · rename_i a w' hfound
    rw [hfound] at hupheld
    exact .of_not
        (spawnIn_not_ofSettings hupheld.founded (houses_of_bundle h hfound) hspawn)

theorem spawnAs_blames (h : w.Regular reserved) (haligned : Aligned T) {ts : List T}
    {bundle : Bundle T V} (hspawn : (w.spawnAs ts bundle).1 = .error error) :
    error.BlamesColumn w.store.format.rowsPerChunk ts := by
  have hupheld := ensure_upholds w ts h
  unfold spawnAs at hspawn
  split at hspawn
  · rename_i hensure
    cases hspawn
    exact h.ensure_blames haligned (congrArg Prod.fst hensure)
  · rename_i a catalog hensure
    rw [hensure] at hupheld
    exact .of_not
        (spawnIn_not_ofSettings hupheld.founded (houses_of_ensure h hensure) hspawn)

/-- Nor does the request for the target of a move make the settings be blamed for it. -/
theorem moveOut_not_ofSettings_of_ensure {w' : World T V} (h : w.Regular reserved)
    {ts : List T} {target : Archetype T} {catalog : Catalog T V}
    (hensure : w.catalog.ensure ts = (.ok target, catalog)) {id : SlotId}
    (hout : World.moveOut { w with catalog } e a id = (.error error, w')) :
    ¬ error.OfSettings := by
  have hasked := ensure_upholds w ts h
  rw [hensure] at hasked
  exact moveOut_not_ofSettings hasked.founded (congrArg Prod.fst hout)

/-- An entity gains a component unless no layout has a column for it: there are columns for all
others. -/
theorem gain_blames (h : w.Regular reserved) (haligned : Aligned T) (ha : w.Houses a)
    {id : SlotId} {t : T} {value : V} (hgain : (w.gain e a id t value).1 = .error error) :
    error.BlamesColumn w.store.format.rowsPerChunk [t] := by
  unfold gain at hgain
  split at hgain
  · rename_i hensure
    cases hgain
    intro hsettings
    obtain ⟨hinvalid, t', ht', hunlaid⟩ :=
      h.ensure_blames haligned (congrArg Prod.fst hensure) hsettings
    -- The entity has columns for the types that it has already.
    have hnew : t' ∉ a.types := fun hold => (h.laidOut ha hold).not_unlaid hunlaid
    exact ⟨hinvalid, t', (List.mem_append.mp ht').resolve_left hnew, hunlaid⟩
  · rename_i target catalog hensure
    split at hgain
    · rename_i hout
      cases hgain
      exact .of_not (moveOut_not_ofSettings_of_ensure h hensure hout)
    · rename_i carried w' hout
      obtain ⟨hleft, htarget⟩ := moveOut_of_ensure h hensure hout
      exact .of_not (finishMove_not_ofSettings hleft.founded htarget hgain)

theorem lose_not_ofSettings (h : w.Regular reserved) (haligned : Aligned T) (ha : w.Houses a)
    {id : SlotId} {t : T} (hlose : (w.lose e a id t).1 = .error error) : ¬ error.OfSettings := by
  unfold lose at hlose
  split at hlose
  · rename_i hensure
    cases hlose
    intro hsettings
    obtain ⟨-, t', ht', hunlaid⟩ := h.ensure_blames haligned (congrArg Prod.fst hensure) hsettings
    exact (h.laidOut ha (List.mem_of_mem_filter ht')).not_unlaid hunlaid
  · rename_i target catalog hensure
    split at hlose
    · rename_i hout
      cases hlose
      exact moveOut_not_ofSettings_of_ensure h hensure hout
    · rename_i carried w' hout
      obtain ⟨hleft, htarget⟩ := moveOut_of_ensure h hensure hout
      split at hlose
      · cases hlose
        exact StoreError.componentNotFound_not_ofSettings _
      · split at hlose
        · rename_i hfinish
          cases hlose
          exact finishMove_not_ofSettings hleft.founded htarget (congrArg Prod.fst hfinish)
        · cases hlose

/-! ### Access -/

/-- A body that is refused for nothing but a column of one of the types. -/
structure BlamesColumns (reserved : List SlotId) (body : Body T V α) (ts : List T) : Prop where
  upholds : ∀ w a id, Upholds (RowStore.Regular · reserved) w (body w a id).2
  blames : ∀ w a id error, w.Regular reserved → w.Houses a → (body w a id).1 = .error error →
    error.BlamesColumn w.store.format.rowsPerChunk ts

omit [DecidableEq T] in
theorem tryAccess_blames {body : Body T V α} {ts : List T}
    (hbody : BlamesColumns reserved body ts) (h : w.Regular reserved) {rounds : Nat}
    {answer : Nat × Except StoreError α × World T V}
    (htry : w.tryAccess e body rounds = some answer) (herror : answer.2.1 = .error error) :
    error.BlamesColumn w.store.format.rowsPerChunk ts := by
  induction rounds generalizing w answer with
  | zero => cases htry
  | succ rounds ih =>
    unfold tryAccess at htry
    split at htry
    · cases htry
      cases herror
      exact .of_not StoreError.entityNotFound_not_ofSettings
    · exact ih h htry herror
    · rename_i a id hlocate
      have hupheld := hbody.upholds w a id h
      split at htry
      · -- The chunks of the later round have as many rows.
        rename_i w' hrun
        rw [hrun] at hupheld
        obtain ⟨later, hlater, rfl⟩ := Option.map_eq_some_iff.mp htry
        rw [← hupheld.format]
        exact ih hupheld.founded hlater herror
      · cases htry
        exact hbody.blames w a id error h (h.houses_of_locate hlocate) herror

omit [DecidableEq T] in
theorem access_blames {body : Body T V α} {ts : List T} (hbody : BlamesColumns reserved body ts)
    (h : w.Regular reserved) (herror : (w.access e body).1 = .error error) :
    error.BlamesColumn w.store.format.rowsPerChunk ts := by
  unfold access at herror
  split at herror
  · cases herror
    exact .of_not StoreError.entityNotFound_not_ofSettings
  · rename_i htry
    exact tryAccess_blames hbody h htry herror

theorem add_blames (h : w.Regular reserved) (haligned : Aligned T) {t : T} {value : V}
    (hadd : (w.add e t value).1 = .error error) :
    error.BlamesColumn w.store.format.rowsPerChunk [t] := by
  unfold add at hadd
  split at hadd
  · cases hadd
  · rename_i hrun
    cases hadd
    refine access_blames ⟨fun w a id => put_upholds w e a id t value,
      fun w a id error h ha hput => ?_⟩ h (congrArg Prod.fst hrun)
    split at hput
    · exact gain_blames h haligned ha hput
    · split at hput
      · rename_i hchange
        cases hput
        rw [changeAt_notFound (congrArg Prod.fst hchange)]
        exact .of_not StoreError.entityNotFound_not_ofSettings
      · cases hput

theorem remove_not_ofSettings (h : w.Regular reserved) (haligned : Aligned T) {t : T}
    (hremove : (w.remove e t).1 = .error error) : ¬ error.OfSettings := by
  -- No type may be without a column, and so the settings are not blamed at all.
  have hblames : error.BlamesColumn w.store.format.rowsPerChunk ([] : List T) := by
    refine access_blames ⟨fun w a id => ?_,
      fun w a id error h ha hlose hsettings => ?_⟩ h hremove
    · split
      · exact .refl w
      · exact lose_upholds w e a id t
    · split at hlose
      · rename_i hslot
        cases hlose
        unfold slotIn at hslot
        split at hslot
        · cases hslot
          exact absurd hsettings (StoreError.componentNotFound_not_ofSettings _)
        · cases hslot
      · exact absurd hsettings (lose_not_ofSettings h haligned ha hlose)
  intro hsettings
  obtain ⟨-, t, ht, -⟩ := hblames hsettings
  cases ht

/-- How the operations of a world report that they are refused. -/
structure Reports (w : World T V) : Prop where
  catalog : w.catalog.Reports
  /-- Also for a bundle of just the types that it states. -/
  spawnStated : ∀ stated bundle error, (w.spawnStated stated bundle).1 = .error error →
    error.BlamesColumn w.store.format.rowsPerChunk stated
  spawnAs : ∀ ts bundle error, (w.spawnAs ts bundle).1 = .error error →
    error.BlamesColumn w.store.format.rowsPerChunk ts
  spawnIn : ∀ key a bundle error, w.catalog.archetype? key = some a →
    (w.spawnIn a bundle).1 = .error error → ¬ error.OfSettings
  /-- Of the types that the entity has after it, only the new one may have no column. -/
  add : ∀ e t value error, (w.add e t value).1 = .error error →
    error.BlamesColumn w.store.format.rowsPerChunk [t]
  remove : ∀ e t error, (w.remove e t).1 = .error error → ¬ error.OfSettings

theorem Regular.world_reports (h : w.Regular reserved) (haligned : Aligned T) : w.Reports where
  catalog := h.reports haligned
  spawnStated _ _ _ := spawnStated_blames h haligned
  spawnAs _ _ _ := spawnAs_blames h haligned
  spawnIn _ _ _ _ ha := spawnIn_not_ofSettings h (h.houses ha)
  add _ _ _ _ := add_blames h haligned
  remove _ _ _ := remove_not_ofSettings h haligned

end operations

end World

/-! ### Worlds in use -/

namespace SharedWorld

variable [DecidableEq T]

/-- Whatever was done with a world, it reports exhaustion as fatal, except that a column may be
too large for a layout. -/
theorem Orderly.exhaustion_reported {number : Nat} {settings : Settings} {w : World T V}
    (haligned : Aligned T) (made : World.create number settings = .ok w) {uses : List (Use T V)}
    (horderly : (ofWorld w).Orderly uses) : ((ofWorld w).after uses).world.Reports :=
  (horderly.regular_of_create made).world_reports haligned

/-- Two component types, one of 32 TiB. -/
inductive Bulk where
  | grain
  | slab
  deriving DecidableEq

instance : ComponentType Bulk where
  name
    | .grain => "Grain"
    | .slab => "Slab"
  size
    | .grain => 8
    | .slab => 1 <<< 45
  align
    | .grain => 8
    | .slab => 1
  hash
    | .grain => 0
    | .slab => UInt64.ofNat (1 <<< 63)

theorem Bulk.aligned : Aligned Bulk := fun t => by cases t <;> decide

/-- A world in which a column of the large type has `2 ^ 63` bytes. -/
def roomy : Settings := Settings.default.withRowBits 18

/-- An entity is made in the archetype of the small type, and a row there is handed out. -/
def graining : List (Use Bulk Nat) :=
  [.event (.call (.create [(.grain, 7)])), .rows (.issue 0), .event (.node [.grain, .slab])]

theorem exhaustion_reported_grained : Aligned Bulk ∧ ∃ w : World Bulk Nat,
    World.create 0 roomy = .ok w ∧ (ofWorld w).Orderly graining ∧
      ((ofWorld w).after graining).world.Reports ∧
      (((ofWorld w).after graining).world.add ⟨0, 0⟩ .slab 8).1 = .error Layout.invalid := by
  have hmade : ((World.create 0 roomy : Except StoreError (World Bulk Nat)).map fun w =>
      (((ofWorld w).after graining).world.add ⟨0, 0⟩ .slab 8).1) =
        .ok (.error Layout.invalid) := by decide +kernel
  obtain ⟨w, hcreate, hadd⟩ := exists_of_map hmade
  have horderly : (ofWorld w).Orderly graining := by
    simp [graining, Orderly, Allows, Pool.Allows, RowStore.Fills]
  exact ⟨Bulk.aligned, w, hcreate, horderly,
    horderly.exhaustion_reported Bulk.aligned hcreate, hadd⟩

/-- There is no memory for a column of the large type, and the settings are blamed. -/
theorem exhaustion_blames_settings : ∃ w : World Bulk Nat, World.create 0 roomy = .ok w ∧
    (columnError w.store.memory Bulk.slab w.store.format.rowsPerChunk).isSome ∧
      ∃ error, (w.catalog.ensure [.slab]).1 = .error error ∧
        (w.spawn [(.slab, 7)]).1 = .error error ∧ error.OfSettings ∧ error.isFatal = false := by
  have hmade : ((World.create 0 roomy : Except StoreError (World Bulk Nat)).map fun w =>
      ((columnError w.store.memory Bulk.slab w.store.format.rowsPerChunk).isSome,
        (w.catalog.ensure [.slab]).1, (w.spawn [(.slab, 7)]).1)) =
          .ok (true, .error Layout.invalid, .error Layout.invalid) := by decide +kernel
  obtain ⟨w, hcreate, hanswers⟩ := exists_of_map hmade
  simp only [Prod.mk.injEq] at hanswers
  obtain ⟨hcolumn, hensure, hspawn⟩ := hanswers
  exact ⟨w, hcreate, hcolumn, Layout.invalid, hensure, hspawn, ⟨_, rfl⟩, rfl⟩

/-- With half or twice as many rows the same type is refused with a fatal error. -/
example : [17, 18, 19].map (fun rowBits => columnError .ample Bulk.slab (1 <<< rowBits)) =
    [some (.allocationFailed (1 <<< 62)), some Layout.invalid,
      some (.allocationFailed ((1 <<< 64) - 1))] := by decide

end SharedWorld

end ArchetypeStore

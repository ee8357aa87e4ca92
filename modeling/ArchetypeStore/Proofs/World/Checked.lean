import ArchetypeStore.Proofs.RowStore.Bounds
import ArchetypeStore.Proofs.World.Shared

/-! # Worlds within bounds

  The operations of a world once more, with the bounds of the rows that they work on. To
  those a world adds that the slot of a component type is a column of the chunk, and that
  components which leave a row or enter one fill its columns.

  No operation breaks a bound, whatever handles and components it is given, and whatever was
  done with the rows of the world before.
-/

namespace ArchetypeStore

open Breach (require require_bind)

variable {T V : Type}

namespace World

variable {α : Type} {reserved : List SlotId} {w w' : World T V} {e : Entity}

/-! ### Access -/

/-- The body of an operation, with its bounds. -/
abbrev CheckedBody (T V α : Type) :=
  World T V → Archetype T → SlotId → Except Breach (Except StoreError α × World T V)

/-- Look up and run the body, at most `rounds` times. -/
def tryAccessChecked (w : World T V) (e : Entity) (body : CheckedBody T V α) :
    (rounds : Nat) → Except Breach (Option (Nat × Except StoreError α × World T V))
  | 0 => .ok none
  | rounds + 1 =>
    match w.locate e with
    | .gone => .ok (some (0, .error .entityNotFound, w))
    | .inTransit => w.tryAccessChecked e body rounds
    | .found a id => do
      match ← body w a id with
      | (.error .entityNotFound, w) =>
        let later ← w.tryAccessChecked e body rounds
        return later.map fun (runs, answer) => (runs + 1, answer)
      | answer => return some (1, answer)

/-- Run the body of an operation on an entity. -/
def accessChecked (w : World T V) (e : Entity) (body : CheckedBody T V α) :
    Except Breach (Except StoreError α × World T V) := do
  match ← w.tryAccessChecked e body patience with
  | none => return (.error .entityNotFound, w)
  | some (_, answer) => return answer

section access

variable [ComponentType T]

/-- An entity is found in an archetype of the world. -/
theorem Regular.houses_of_locate (h : w.Regular reserved) {a : Archetype T} {id : SlotId}
    (hlocate : w.locate e = .found a id) : w.Houses a := by
  unfold locate at hlocate
  split at hlocate
  · cases hlocate
  · split at hlocate
    · cases hlocate
    · split at hlocate
      · cases hlocate
      · split at hlocate
        · cases hlocate
        · rename_i hhome
          cases hlocate
          obtain ⟨key, -, ha⟩ := Option.bind_eq_some_iff.mp hhome
          exact h.houses ha

/-- A body that keeps its bounds in every archetype of a regular world. -/
structure KeepsBounds (reserved : List SlotId) (body : Body T V α)
    (checked : CheckedBody T V α) : Prop where
  upholds : ∀ w a id, Upholds (RowStore.Regular · reserved) w (body w a id).2
  eq : ∀ w a id, w.Regular reserved → w.Houses a → checked w a id = .ok (body w a id)

theorem tryAccessChecked_eq {body : Body T V α} {checked : CheckedBody T V α}
    (hkeeps : KeepsBounds reserved body checked) (h : w.Regular reserved) (rounds : Nat) :
    w.tryAccessChecked e checked rounds = .ok (w.tryAccess e body rounds) := by
  induction rounds generalizing w with
  | zero => rfl
  | succ rounds ih =>
    unfold tryAccessChecked tryAccess
    cases hlocate : w.locate e with
    | gone => rfl
    | inTransit => exact ih h
    | found a id =>
      dsimp only
      rw [hkeeps.eq w a id h (h.houses_of_locate hlocate), Breach.ok_bind]
      have hregular := (hkeeps.upholds w a id h).founded
      cases hrun : body w a id with
      | mk answer w' =>
        rw [hrun] at hregular
        cases answer with
        | ok value => rfl
        | error error =>
          cases error with
          | entityNotFound =>
            dsimp only
            rw [ih hregular]
            rfl
          | _ => rfl

theorem accessChecked_eq {body : Body T V α} {checked : CheckedBody T V α}
    (hkeeps : KeepsBounds reserved body checked) (h : w.Regular reserved)
    {answer : Except StoreError α × World T V} (hrun : w.access e body = answer) :
    w.accessChecked e checked = .ok answer := by
  rw [accessChecked, tryAccessChecked_eq hkeeps h, Breach.ok_bind, ← hrun, access]
  cases w.tryAccess e body patience with
  | none => rfl
  | some found => rfl

end access

/-! ### Single components -/

/-- The values of an entity in its row. -/
def valuesAtChecked (w : World T V) (e : Entity) (a : Archetype T) (id : SlotId) :
    Except Breach (Except StoreError (RowView V × List V)) := do
  match ← w.store.rowChecked a.partition id with
  | .error e => return .error e
  | .ok v =>
    match v.cell with
    | none => return .error .entityNotFound
    | some cell =>
      if cell.item = e.item then return .ok (v, cell.values) else return .error .entityNotFound

/-- The value in one slot of an entity, which is a column with a value. -/
def valueAtChecked (w : World T V) (e : Entity) (a : Archetype T) (id : SlotId) (slot : Nat) :
    Except Breach (Except StoreError V) := do
  match ← w.valuesAtChecked e a id with
  | .error e => return .error e
  | .ok (v, values) =>
    require (slot < w.store.columnCount v.chunk) .column
    match values[slot]? with
    | none => throw .column
    | some value => return .ok value

/-- Change the value in one slot of an entity, which is a column with a value. -/
def changeAtChecked (w : World T V) (e : Entity) (a : Archetype T) (id : SlotId) (slot : Nat)
    (f : V → V) : Except Breach (Except StoreError V × World T V) := do
  match ← w.valuesAtChecked e a id with
  | .error e => return (.error e, w)
  | .ok (v, values) =>
    require (slot < w.store.columnCount v.chunk) .column
    match values[slot]? with
    | none => throw .column
    | some value =>
      return (.ok value, w.withStore
        (w.store.setCell v.chunk v.row (some ⟨e.item, values.set slot (f value)⟩)))

section components

variable [ComponentType T] {a : Archetype T} {id : SlotId} {slot : Nat}

theorem valuesAtChecked_eq (h : w.Regular reserved) (e : Entity) (a : Archetype T) (id : SlotId) :
    w.valuesAtChecked e a id = .ok (w.valuesAt e a id) := by
  unfold valuesAtChecked valuesAt
  rw [RowStore.rowChecked_eq h.store.toChained, Breach.ok_bind]
  cases w.store.row a.partition id with
  | error e => rfl
  | ok v =>
    dsimp only
    cases v.cell with
    | none => rfl
    | some cell =>
      dsimp only
      split <;> rfl

/-- Where an entity is found, there is a column with a value for each type of its archetype. -/
theorem Regular.columns (h : w.Regular reserved) (ha : w.Houses a) {v : RowView V}
    {values : List V} (hvalues : w.valuesAt e a id = .ok (v, values)) :
    w.store.columnCount v.chunk = a.types.length ∧ values.length = a.types.length := by
  obtain ⟨hlocate, hcell⟩ := cell_of_valuesAt hvalues
  obtain ⟨hc, -⟩ := h.store.toChained.of_locate hlocate
  have hcolumns := h.store.toWired.columnCount_eq h.store.toChained hc ha.layout
  have hlen := h.store.tabular.length_values h.store.toWired h.store.toChained hc hcell
  exact ⟨hcolumns, hlen.trans hcolumns⟩

theorem valueAtChecked_eq (h : w.Regular reserved) (ha : w.Houses a) (e : Entity) (id : SlotId)
    (hslot : slot < a.types.length) :
    w.valueAtChecked e a id slot = .ok (w.valueAt e a id slot) := by
  unfold valueAtChecked valueAt
  rw [valuesAtChecked_eq h, Breach.ok_bind]
  cases hvalues : w.valuesAt e a id with
  | error e => rfl
  | ok found =>
    obtain ⟨v, values⟩ := found
    obtain ⟨hcolumns, hlen⟩ := h.columns ha hvalues
    dsimp only
    rw [require_bind (hcolumns ▸ hslot), List.getElem?_eq_getElem (hlen ▸ hslot)]
    rfl

theorem changeAtChecked_eq (h : w.Regular reserved) (ha : w.Houses a) (e : Entity) (id : SlotId)
    (hslot : slot < a.types.length) (f : V → V) :
    w.changeAtChecked e a id slot f = .ok (w.changeAt e a id slot f) := by
  unfold changeAtChecked changeAt
  rw [valuesAtChecked_eq h, Breach.ok_bind]
  cases hvalues : w.valuesAt e a id with
  | error e => rfl
  | ok found =>
    obtain ⟨v, values⟩ := found
    obtain ⟨hcolumns, hlen⟩ := h.columns ha hvalues
    dsimp only
    rw [require_bind (hcolumns ▸ hslot), List.getElem?_eq_getElem (hlen ▸ hslot)]
    rfl

variable [DecidableEq T]

/-- Read one component. -/
def readChecked (w : World T V) (e : Entity) (t : T) : Except Breach (Option V) := do
  match ← w.accessChecked e fun w a id =>
    match w.slotIn a t with
    | .error e => return (.error e, w)
    | .ok slot => do return (← w.valueAtChecked e a id slot, w) with
  | (.ok value, _) => return some value
  | (.error _, _) => return none

/-- Change one component in place. -/
def updateChecked (w : World T V) (e : Entity) (t : T) (f : V → V) :
    Except Breach (Option V × World T V) := do
  match ← w.accessChecked e fun w a id =>
    match w.slotIn a t with
    | .error e => return (.error e, w)
    | .ok slot => w.changeAtChecked e a id slot f with
  | (.ok value, w) => return (some value, w)
  | (.error _, w) => return (none, w)

/-- The slot of a type is a column of its archetype. -/
theorem Regular.slot_lt (h : w.Regular reserved) (ha : w.Houses a) {t : T}
    (hslot : a.slot? w.registry t = some slot) : slot < a.types.length :=
  (List.getElem?_eq_some_iff.mp ((ha.wf.slot?_eq_some_iff h.catalog.registry).mp hslot)).1

theorem Regular.slotIn_lt (h : w.Regular reserved) (ha : w.Houses a) {t : T}
    (hslot : w.slotIn a t = .ok slot) : slot < a.types.length := by
  unfold slotIn at hslot
  split at hslot
  · cases hslot
  · rename_i hfound
    cases hslot
    exact h.slot_lt ha hfound

theorem readChecked_eq (h : w.Regular reserved) (e : Entity) (t : T) :
    w.readChecked e t = .ok (w.read? e t) := by
  unfold read? readChecked
  generalize hrun : w.access e _ = out
  rw [accessChecked_eq ⟨fun w a id => ?_, fun w a id h ha => ?_⟩ h hrun]
  · rcases out with ⟨_ | _, _⟩ <;> rfl
  · split <;> exact .refl w
  · cases hslot : w.slotIn a t with
    | error error => rfl
    | ok slot =>
      dsimp only
      rw [valueAtChecked_eq h ha e id (h.slotIn_lt ha hslot)]
      rfl

theorem updateChecked_eq (h : w.Regular reserved) (e : Entity) (t : T) (f : V → V) :
    w.updateChecked e t f = .ok (w.update e t f) := by
  unfold update updateChecked
  generalize hrun : w.access e _ = out
  rw [accessChecked_eq ⟨fun w a id => ?_, fun w a id h ha => ?_⟩ h hrun]
  · rcases out with ⟨_ | _, _⟩ <;> rfl
  · split
    · exact .refl w
    · exact changeAt_upholds w e a id _ f
  · cases hslot : w.slotIn a t with
    | error error => rfl
    | ok slot => exact changeAtChecked_eq h ha e id (h.slotIn_lt ha hslot) f

end components

/-! ### Making and destroying -/

section lifecycle

variable [ComponentType T] {a : Archetype T}

/-- Destroy an entity. -/
def destroyChecked (w : World T V) (e : Entity) : Except Breach (Bool × World T V) := do
  match ← w.accessChecked e fun w a id => do
    match ← w.store.evictChecked a.partition id fun v =>
      if holds e v && w.isAtRest e v then .ok () else .error .entityNotFound with
    | (.error error, store) => return (.error error, w.withStore store)
    | (.ok evicted, store) =>
      return (.ok (), ((w.withStore store).flag e SlotId.detach).drop evicted.values) with
  | (.ok (), w) => return (true, w)
  | (.error _, w) => return (false, w)

theorem destroyChecked_eq (h : w.Regular reserved) (e : Entity) :
    w.destroyChecked e = .ok (w.destroy e) := by
  unfold destroy destroyChecked
  generalize hrun : w.access e _ = out
  rw [accessChecked_eq ⟨fun w a id => ?_, fun w a id h ha => ?_⟩ h hrun]
  · rcases out with ⟨_ | _, _⟩ <;> rfl
  · exact vacate_upholds w e a id
  · rw [RowStore.evictChecked_eq h.store, Breach.ok_bind]
    rcases w.store.evict a.partition id _ with ⟨_ | _, _⟩ <;> rfl

variable [DecidableEq T]

/-- Move components into a new row of an archetype that becomes the home of the item. -/
def moveInChecked (w : World T V) (a : Archetype T) (item : Nat) (components : Bundle T V) :
    Except Breach (Except StoreError SlotId × World T V) :=
  match a.reorder w.registry components with
  | (.error e, _) => .ok (.error e, w)
  | (.ok (), ordered) => do
    let (answer, store) ← w.store.insertChecked a.partition item (Bundle.values ordered)
    return (answer, (w.setHome item a.key).withStore store)

/-- Make an entity in an archetype. -/
def spawnInChecked (w : World T V) (a : Archetype T) (bundle : Bundle T V) :
    Except Breach (Except StoreError Entity × World T V) := do
  let (e, made) := w.newEntity a.key
  let (answer, moved) ← made.moveInChecked a e.item bundle
  match bundle.offer fun _ => answer with
  | (.ok _, dropped) => return (.ok e, moved.drop dropped)
  | (.error error, dropped) => return (.error error, moved.dropLastEntity.drop dropped)

/-- Make an entity with the components of a bundle, whose type states the component set. -/
def spawnStatedChecked (w : World T V) (stated : List T) (bundle : Bundle T V) :
    Except Breach (Except StoreError Entity × World T V) :=
  match w.archetypeOfBundle stated with
  | (.error e, w) => .ok (.error e, w.drop bundle.values)
  | (.ok a, w) => w.spawnInChecked a bundle

/-- Make an entity in the archetype of the listed types, which the bundle has to fit. -/
def spawnAsChecked (w : World T V) (types : List T) (bundle : Bundle T V) :
    Except Breach (Except StoreError Entity × World T V) :=
  match w.catalog.ensure types with
  | (.error e, catalog) => .ok (.error e, { w with catalog }.drop bundle.values)
  | (.ok a, catalog) => { w with catalog }.spawnInChecked a bundle

theorem moveInChecked_eq (h : w.Regular reserved) (ha : w.Houses a) (item : Nat)
    (components : Bundle T V) :
    w.moveInChecked a item components = .ok (w.moveIn a item components) := by
  unfold moveInChecked moveIn
  cases hreorder : a.reorder w.registry components with
  | mk answer ordered =>
    cases answer with
    | error e => rfl
    | ok =>
      dsimp only
      rw [RowStore.insertChecked_eq h.store item (fills_of_reorder h ha hreorder)]
      rfl

theorem spawnInChecked_eq (h : w.Regular reserved) (ha : w.Houses a) (bundle : Bundle T V) :
    w.spawnInChecked a bundle = .ok (w.spawnIn a bundle) := by
  have hmade := newEntity_upholds w a.key h
  unfold spawnInChecked spawnIn
  dsimp only
  rw [moveInChecked_eq hmade.founded (hmade.houses a ha), Breach.ok_bind]
  generalize bundle.offer _ = offered
  rcases offered with ⟨_ | _, _⟩ <;> rfl

theorem spawnStatedChecked_eq (h : w.Regular reserved) (stated : List T) (bundle : Bundle T V) :
    w.spawnStatedChecked stated bundle = .ok (w.spawnStated stated bundle) := by
  have hupholds := archetypeOfBundle_upholds w stated h
  unfold spawnStatedChecked spawnStated
  cases hfound : w.archetypeOfBundle stated with
  | mk answer w' =>
    rw [hfound] at hupholds
    cases answer with
    | error e => rfl
    | ok a => exact spawnInChecked_eq hupholds.founded (houses_of_bundle h hfound) bundle

theorem spawnAsChecked_eq (h : w.Regular reserved) (ts : List T) (bundle : Bundle T V) :
    w.spawnAsChecked ts bundle = .ok (w.spawnAs ts bundle) := by
  have hupholds := ensure_upholds w ts h
  unfold spawnAsChecked spawnAs
  cases hensure : w.catalog.ensure ts with
  | mk answer catalog =>
    rw [hensure] at hupholds
    cases answer with
    | error e => rfl
    | ok a => exact spawnInChecked_eq hupholds.founded (houses_of_ensure h hensure) bundle

end lifecycle

/-! ### Adding and removing components -/

section migration

variable [ComponentType T] {a target : Archetype T} {id : SlotId}

/-- Take the components of an entity out of its row, one from each column. -/
def moveOutChecked (w : World T V) (e : Entity) (a : Archetype T) (id : SlotId) :
    Except Breach (Except StoreError (Bundle T V) × World T V) := do
  match ← w.store.evictChecked a.partition id fun v =>
    if holds e v then do
      allocateAll w.store.memory a.types
      if w.isAtRest e v then .ok () else .error .entityNotFound
    else .error .entityNotFound with
  | (.error error, store) => return (.error error, w.withStore store)
  | (.ok evicted, store) =>
    require (a.types.length = evicted.values.length) .column
    return (.ok (a.types.zip evicted.values), (w.withStore store).flag e SlotId.reserve)

theorem moveOutChecked_eq (h : w.Regular reserved) (ha : w.Houses a) (e : Entity) (id : SlotId) :
    w.moveOutChecked e a id = .ok (w.moveOut e a id) := by
  unfold moveOutChecked moveOut
  rw [RowStore.evictChecked_eq h.store, Breach.ok_bind]
  generalize hevict : w.store.evict a.partition id _ = out
  rcases out with ⟨_ | evicted, store⟩
  · rfl
  · obtain ⟨chunk, row, -, cell, hlocate, hcell, -, -, hvalues, -⟩ :=
      RowStore.evict_ok h.store.toSound hevict
    have hc := (h.store.toChained.of_locate hlocate).1
    have hlen := h.store.tabular a.partition a.types ha.layout chunk hc row cell hcell
    dsimp only
    rw [require_bind (hvalues ▸ hlen.symm), Breach.pure_eq]

variable [DecidableEq T]

/-- Put the components that an entity in transit carries into a row of the target. -/
def finishMoveChecked (w : World T V) (e : Entity) (target : Archetype T)
    (carried gained : Bundle T V) : Except Breach (Except StoreError Unit × World T V) := do
  match ← w.moveInChecked target e.item (carried ++ gained) with
  | (.ok _, w) => return (.ok (), w)
  | (.error error, w) => return (.error error, (w.flag e SlotId.detach).drop carried.values)

/-- Move an entity to the archetype that also has the type `t`. -/
def gainChecked (w : World T V) (e : Entity) (a : Archetype T) (id : SlotId) (t : T) (value : V) :
    Except Breach (Except StoreError Unit × World T V) :=
  match w.catalog.ensure (a.types ++ [t]) with
  | (.error error, catalog) => .ok (.error error, { w with catalog })
  | (.ok target, catalog) => do
    match ← { w with catalog }.moveOutChecked e a id with
    | (.error error, w) => return (.error error, w)
    | (.ok carried, w) => w.finishMoveChecked e target carried [(t, value)]

/-- Give an entity a component. -/
def addChecked (w : World T V) (e : Entity) (t : T) (value : V) :
    Except Breach (Except StoreError Unit × World T V) := do
  match ← w.accessChecked e fun w a id =>
    match a.slot? w.registry t with
    | none => w.gainChecked e a id t value
    | some slot => do
      match ← w.changeAtChecked e a id slot fun _ => value with
      | (.error error, w) => return (.error error, w)
      | (.ok old, w) => return (.ok (), w.drop [old]) with
  | (.ok (), w) => return (.ok (), w)
  | (.error error, w) => return (.error error, w.drop [value])

/-- Move an entity to the archetype without the type `t`. -/
def loseChecked (w : World T V) (e : Entity) (a : Archetype T) (id : SlotId) (t : T) :
    Except Breach (Except StoreError V × World T V) :=
  match w.catalog.ensure (a.types.filter (· ≠ t)) with
  | (.error error, catalog) => .ok (.error error, { w with catalog })
  | (.ok target, catalog) => do
    match ← { w with catalog }.moveOutChecked e a id with
    | (.error error, w) => return (.error error, w)
    | (.ok carried, w) =>
      match carried.lookup t with
      | none =>
        return (.error (.componentNotFound (ComponentType.name t)), w.drop (Bundle.values carried))
      | some value =>
        match ← w.finishMoveChecked e target (carried.eraseP (·.1 == t)) [] with
        | (.error error, w) => return (.error error, w.drop [value])
        | (.ok (), w) => return (.ok value, w)

/-- Take a component off an entity. -/
def removeChecked (w : World T V) (e : Entity) (t : T) :
    Except Breach (Except StoreError V × World T V) :=
  w.accessChecked e fun w a id =>
    match w.slotIn a t with
    | .error error => return (.error error, w)
    | .ok _ => w.loseChecked e a id t

theorem finishMoveChecked_eq (h : w.Regular reserved) (ha : w.Houses target) (e : Entity)
    (carried gained : Bundle T V) :
    w.finishMoveChecked e target carried gained = .ok (w.finishMove e target carried gained) := by
  unfold finishMoveChecked finishMove
  rw [moveInChecked_eq h ha, Breach.ok_bind]
  rcases w.moveIn target e.item (carried ++ gained) with ⟨_ | _, _⟩ <;> rfl

/-- Once the target of a move is there, the components are taken out within bounds. -/
theorem moveOutChecked_of_ensure (h : w.Regular reserved) (ha : w.Houses a) {ts : List T}
    {catalog : Catalog T V} (hensure : w.catalog.ensure ts = (.ok target, catalog)) (e : Entity)
    (id : SlotId) : World.moveOutChecked { w with catalog } e a id =
      .ok (World.moveOut { w with catalog } e a id) := by
  have hasked := ensure_upholds w ts h
  rw [hensure] at hasked
  exact moveOutChecked_eq hasked.founded (hasked.houses a ha) e id

theorem gainChecked_eq (h : w.Regular reserved) (ha : w.Houses a) (e : Entity) (id : SlotId)
    (t : T) (value : V) : w.gainChecked e a id t value = .ok (w.gain e a id t value) := by
  unfold gainChecked gain
  cases hensure : w.catalog.ensure (a.types ++ [t]) with
  | mk answer catalog =>
    cases answer with
    | error error => rfl
    | ok target =>
      dsimp only
      rw [moveOutChecked_of_ensure h ha hensure, Breach.ok_bind]
      cases hout : World.moveOut { w with catalog } e a id with
      | mk answer w' =>
        obtain ⟨hleft, htarget⟩ := moveOut_of_ensure h hensure hout
        cases answer with
        | error error => rfl
        | ok carried => exact finishMoveChecked_eq hleft.founded htarget e carried [(t, value)]

theorem loseChecked_eq (h : w.Regular reserved) (ha : w.Houses a) (e : Entity) (id : SlotId)
    (t : T) : w.loseChecked e a id t = .ok (w.lose e a id t) := by
  unfold loseChecked lose
  cases hensure : w.catalog.ensure (a.types.filter (· ≠ t)) with
  | mk answer catalog =>
    cases answer with
    | error error => rfl
    | ok target =>
      dsimp only
      rw [moveOutChecked_of_ensure h ha hensure, Breach.ok_bind]
      cases hout : World.moveOut { w with catalog } e a id with
      | mk answer w' =>
        obtain ⟨hleft, htarget⟩ := moveOut_of_ensure h hensure hout
        cases answer with
        | error error => rfl
        | ok carried =>
          dsimp only
          cases carried.lookup t with
          | none => rfl
          | some value =>
            dsimp only
            rw [finishMoveChecked_eq hleft.founded htarget, Breach.ok_bind]
            rcases w'.finishMove e target _ [] with ⟨_ | _, _⟩ <;> rfl

theorem addChecked_eq (h : w.Regular reserved) (e : Entity) (t : T) (value : V) :
    w.addChecked e t value = .ok (w.add e t value) := by
  unfold add addChecked
  generalize hrun : w.access e _ = out
  rw [accessChecked_eq ⟨fun w a id => ?_, fun w a id h ha => ?_⟩ h hrun]
  · rcases out with ⟨_ | _, _⟩ <;> rfl
  · exact put_upholds w e a id t value
  · cases hslot : a.slot? w.registry t with
    | none => exact gainChecked_eq h ha e id t value
    | some slot =>
      dsimp only
      rw [changeAtChecked_eq h ha e id (h.slot_lt ha hslot), Breach.ok_bind]
      rcases w.changeAt e a id slot _ with ⟨_ | _, _⟩ <;> rfl

theorem removeChecked_eq (h : w.Regular reserved) (e : Entity) (t : T) :
    w.removeChecked e t = .ok (w.remove e t) := by
  refine accessChecked_eq
    ⟨fun w a id => ?_, fun w a id h ha => ?_⟩ h rfl
  · split
    · exact .refl w
    · exact lose_upholds w e a id t
  · cases w.slotIn a t with
    | error error => rfl
    | ok slot => exact loseChecked_eq h ha e id t

end migration

end World

end ArchetypeStore

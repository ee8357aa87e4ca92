import ArchetypeStore.Proofs.World.Reach

/-! # Changing and destroying entities

  One law for each way in which an operation may end. Each says which item is touched, what
  the item has then, and which values were dropped; by `Effect` all other items keep what
  they have. A handle that is not of the world, or whose entity was destroyed, is answered
  without any effect but the loss of a value handed in.
-/

namespace ArchetypeStore

variable {T V : Type}

namespace World

variable [ComponentType T] {w w' : World T V}

/-! ### Components in place -/

theorem changeAt_of_seat (h : w.Sound) {e : Entity} {a : Archetype T} {chunk row : Nat}
    {values : List V} (hseat : w.Seat e.item a chunk row values) {slot : Nat} {value : V}
    (hvalue : values[slot]? = some value) (f : V → V) :
    w.changeAt e a (w.idOf e) slot f = (.ok value, w.withStore
      (w.store.setCell chunk row (some ⟨e.item, values.set slot (f value)⟩))) := by
  unfold changeAt
  rw [valuesAt_of_seat h hseat]
  simp only [hvalue, RowStore.view]

variable [DecidableEq T]

/-- A component of a live entity is changed in place, and its old value is the answer. -/
theorem update_of_mem (h : w.Sound) {e : Entity} (he : e.world = w.number) {a : Archetype T}
    {values : List V} (hhas : w.Has e.item a values) {t : T} (ht : t ∈ a.types) (f : V → V) :
    ∃ slot value w', w.update e t f = (some value, w') ∧ a.types[slot]? = some t ∧
      values[slot]? = some value ∧ w.Effect w' [] [e.item] [] ∧
        w'.Has e.item a (values.set slot (f value)) := by
  obtain ⟨slot, value, hslot, htype, hvalue, -⟩ := value_of_mem h hhas ht
  have hlength := (h.archetype_of_has hhas).2.2.2.2
  obtain ⟨chunk, row, hseat⟩ := hhas
  obtain ⟨heffect, hhas'⟩ := rewrite_effect h hseat (values.set slot (f value))
    (by rw [List.length_set, hlength])
  refine ⟨slot, value, _, ?_, htype, hvalue, heffect, hhas'⟩
  unfold update
  rw [access_of_seat h he hseat]
  · simp only [slotIn, hslot, changeAt_of_seat h hseat hvalue f]
  · simp only [slotIn, hslot, changeAt_of_seat h hseat hvalue f]
    intro heq
    cases heq

/-- A component that an entity does not have is not changed. -/
theorem update_of_absent (h : w.Sound) {e : Entity} (he : e.world = w.number)
    {a : Archetype T} {values : List V} (hhas : w.Has e.item a values) {t : T}
    (ht : t ∉ a.types) (f : V → V) : w.update e t f = (none, w) := by
  have hslot := slot?_of_absent h hhas ht
  obtain ⟨chunk, row, hseat⟩ := hhas
  unfold update
  rw [access_of_seat h he hseat]
  · simp only [slotIn, hslot]
  · simp only [slotIn, hslot]
    intro heq
    cases heq

theorem update_of_not_owns (h : w.Sound) {e : Entity} (hnot : ¬ w.Owns e) (t : T)
    (f : V → V) : w.update e t f = (none, w) := by
  unfold update
  rw [access_of_not_owns h hnot]

/-! ### Destroying -/

omit [ComponentType T] [DecidableEq T] in
/-- An item that got the detached flag is dead. -/
theorem not_lives_detach (w : World T V) {e : Entity} (hitem : e.item < w.store.ids.size) :
    ¬ (w.flag e SlotId.detach).Lives e.item := by
  rintro ⟨-, hflag⟩
  have hid := RowStore.idOf_setId w.store e.item (SlotId.detach (w.idOf e)) e.item hitem
  rw [if_pos rfl] at hid
  have hid' : (w.flag e SlotId.detach).store.idOf e.item = SlotId.detach (w.idOf e) := hid
  rw [hid', SlotId.isDetached_detach] at hflag
  cases hflag

omit [DecidableEq T] in
theorem accepts_of_seat (h : w.Sound) {e : Entity} {a : Archetype T} {chunk row : Nat}
    {values : List V} (hseat : w.Seat e.item a chunk row values) :
    holds e (w.store.view chunk row) = true ∧ w.isAtRest e (w.store.view chunk row) = true := by
  have hcell : (w.store.view chunk row).cell = some ⟨e.item, values⟩ := hseat.cell
  have hid : w.idOf e = (w.store.view chunk row).id := hseat.id
  have hplain : (w.idOf e).isPlain = true := h.plain_of_seat hseat
  constructor
  · simp [holds, hcell]
  · rw [isAtRest, ← hid, hplain]
    simp

omit [DecidableEq T] in
/-- The row of a live entity is emptied when there is room for its slot and the check agrees. -/
theorem evict_of_seat (h : w.Sound) {e : Entity} {a : Archetype T} {chunk row : Nat}
    {values : List V} (hseat : w.Seat e.item a chunk row values)
    (hfinds : w.store.FindsRoom a.partition) {α : Type}
    (accept : RowView V → Except StoreError α) (answer : α)
    (haccept : accept (w.store.view chunk row) = .ok answer) :
    ∃ evicted store, w.store.evict a.partition (w.idOf e) accept = (.ok evicted, store) ∧
      evicted.values = values ∧ w.Effect (w.withStore store) [e.item] [e.item] [] := by
  have hlocate : w.store.locate a.partition (w.idOf e) = some (chunk, row) :=
    h.locate_of_seat hseat
  cases hevict : w.store.evict a.partition (w.idOf e) accept with
  | mk result store =>
    cases result with
    | error error =>
      obtain ⟨-, -, hwhy⟩ := RowStore.evict_error h.store hevict
      rcases hwhy with ⟨-, hnone⟩ | ⟨hlacks, -⟩ | ⟨chunk', row', hlocate', hrefused⟩
      · have := hnone chunk row hlocate
        rw [hseat.cell] at this
        cases this
      · exact absurd hlacks (hfinds error)
      · rw [hlocate] at hlocate'
        cases hlocate'
        rw [haccept] at hrefused
        cases hrefused
    | ok evicted =>
      obtain ⟨chunk', row', given, cell, hlocate', hcell, -, -, hvalues, -, hsound, hvacated,
        hdense⟩ := RowStore.evict_ok h.store hevict
      rw [hlocate] at hlocate'
      cases hlocate'
      rw [hseat.cell] at hcell
      cases hcell
      exact ⟨evicted, store, rfl, hvalues,
        vacate_effect h hseat hsound hvacated (hdense h.dense)⟩

omit [DecidableEq T] in
/-- It is not emptied where the check does not agree, though there may be more room then. -/
theorem evict_of_rejected (h : w.Sound) {e : Entity} {a : Archetype T} {chunk row : Nat}
    {values : List V} (hseat : w.Seat e.item a chunk row values)
    (hfinds : w.store.FindsRoom a.partition) {α : Type}
    (accept : RowView V → Except StoreError α) (error : StoreError)
    (haccept : accept (w.store.view chunk row) = .error error) :
    ∃ store, w.store.evict a.partition (w.idOf e) accept = (.error error, store) ∧
      w.store.Alike store ∧ w.Effect (w.withStore store) [] [] [] := by
  have hlocate : w.store.locate a.partition (w.idOf e) = some (chunk, row) :=
    h.locate_of_seat hseat
  obtain ⟨store, hmake⟩ := hfinds.makeRoom hlocate
  obtain ⟨hevict, halike, hsound⟩ :=
    RowStore.evict_refused h.store hlocate hseat.cell hmake haccept
  exact ⟨store, hevict, halike, alike_effect h halike hsound⟩

omit [DecidableEq T] in
/-- It is not emptied where there is no room for its slot, whatever the check would say. -/
theorem evict_of_crowded (h : w.Sound) {e : Entity} {a : Archetype T} {chunk row : Nat}
    {values : List V} (hseat : w.Seat e.item a chunk row values) {error : StoreError}
    (hlacks : w.store.LacksRoom a.partition error) {α : Type}
    (accept : RowView V → Except StoreError α) :
    w.store.evict a.partition (w.idOf e) accept = (.error error, w.store) :=
  RowStore.evict_of_lacksRoom (h.locate_of_seat hseat) hseat.cell hlacks

omit [DecidableEq T] in
/-- A live entity is destroyed, and its values are dropped, if there is room for its slot. -/
theorem destroy_of_has (h : w.Sound) {e : Entity} (he : e.world = w.number)
    {a : Archetype T} {values : List V} (hhas : w.Has e.item a values)
    (hfinds : w.store.FindsRoom a.partition) :
    ∃ w', w.destroy e = (true, w') ∧ w.Effect w' [] [e.item] values ∧ ¬ w'.Lives e.item := by
  obtain ⟨chunk, row, hseat⟩ := hhas
  obtain ⟨hholds, hrest⟩ := accepts_of_seat h hseat
  obtain ⟨evicted, store, hevict, hvalues, hout⟩ := evict_of_seat h hseat hfinds
    (fun v => if holds e v && w.isAtRest e v then .ok () else .error .entityNotFound) ()
    (by simp [hholds, hrest])
  have hitem : e.item < (w.withStore store).store.ids.size := by
    rw [hout.items]
    exact (h.seated chunk row _ hseat.cell).1
  have hflag := flag_effect hout.sound (List.mem_singleton.mpr rfl : e.item ∈ [e.item])
    SlotId.detach
  -- The item is out of its seat, and with the flag it needs none.
  have hdead := not_lives_detach (w.withStore store) hitem
  have hsettled := hflag.sound.settle hdead
  have hdrop := (hsettled.drop_effect values).mono (List.nil_subset [e.item])
  have hgone : w.Effect (((w.withStore store).flag e SlotId.detach).drop values) [] [e.item]
      values := by
    simpa only [List.append_nil] using hout.trans (hflag.trans hdrop)
  refine ⟨_, ?_, hgone, hdead⟩
  unfold destroy
  rw [access_of_seat h he hseat]
  · simp only [hevict, hvalues]
  · simp only [hevict]
    intro heq
    cases heq

omit [DecidableEq T] in
/-- Otherwise the answer is that it was not, and nothing happens. -/
theorem destroy_of_crowded (h : w.Sound) {e : Entity} (he : e.world = w.number)
    {a : Archetype T} {values : List V} (hhas : w.Has e.item a values) {error : StoreError}
    (hlacks : w.store.LacksRoom a.partition error) : w.destroy e = (false, w) := by
  obtain ⟨chunk, row, hseat⟩ := hhas
  obtain ⟨bytes, rfl⟩ := hlacks.failed h.store
  have hevict := evict_of_crowded h hseat hlacks
    (fun v => if holds e v && w.isAtRest e v then .ok () else .error .entityNotFound)
  unfold destroy
  rw [access_of_seat h he hseat]
  · simp only [hevict]
    rfl
  · simp only [hevict]
    intro heq
    cases heq

omit [DecidableEq T] in
/-- A live entity is destroyed, unless there is no room for its slot. -/
theorem destroy_cases (h : w.Sound) {e : Entity} (he : e.world = w.number)
    {a : Archetype T} {values : List V} (hhas : w.Has e.item a values) :
    (∃ w', w.destroy e = (true, w') ∧ w.Effect w' [] [e.item] values ∧ ¬ w'.Lives e.item) ∨
      ∃ error, w.store.LacksRoom a.partition error ∧ w.destroy e = (false, w) := by
  rcases w.store.findsRoom_or_lacksRoom a.partition with hfinds | ⟨error, hlacks⟩
  · exact .inl (destroy_of_has h he hhas hfinds)
  · exact .inr ⟨error, hlacks, destroy_of_crowded h he hhas hlacks⟩

omit [DecidableEq T] in
theorem destroy_of_not_owns (h : w.Sound) {e : Entity} (hnot : ¬ w.Owns e) :
    w.destroy e = (false, w) := by
  unfold destroy
  rw [access_of_not_owns h hnot]

/-! ### Moves between archetypes -/

omit [DecidableEq T] in
theorem allocateAll_failed {m : Memory} {ts : List T} {e : StoreError}
    (h : allocateAll m ts = .error e) : ∃ bytes, e = .allocationFailed bytes := by
  induction ts with
  | nil => cases h
  | cons t rest ih =>
    unfold allocateAll at h
    cases hone : ComponentType.allocateOne m t with
    | error e' =>
      rw [hone] at h
      cases h
      exact ⟨_, Memory.allocate_error hone⟩
    | ok block =>
      rw [hone] at h
      exact ih h

omit [DecidableEq T] in
/-- The memory refuses what it takes to leave a row of the archetype: room for the slot on the
free stack, or else memory for the components on their way. -/
def RefusesLeave (w : World T V) (a : Archetype T) (error : StoreError) : Prop :=
  w.store.LacksRoom a.partition error ∨
    w.store.FindsRoom a.partition ∧ allocateAll w.store.memory a.types = .error error

omit [DecidableEq T] in
theorem RefusesLeave.failed (h : w.Sound) {a : Archetype T} {error : StoreError}
    (hrefuses : w.RefusesLeave a error) : ∃ bytes, error = .allocationFailed bytes := by
  rcases hrefuses with hlacks | ⟨-, hmemory⟩
  · exact hlacks.failed h.store
  · exact allocateAll_failed hmemory

omit [DecidableEq T] in
theorem RefusesLeave.stopsGrowth (h : w.Sound) {a : Archetype T} {error : StoreError}
    (hrefuses : w.RefusesLeave a error) : error.StopsGrowth := by
  obtain ⟨bytes, rfl⟩ := hrefuses.failed h
  exact .inl rfl

omit [DecidableEq T] in
/-- Where the memory refuses what it takes, the entity stays in its row, and what is stored is
as before. -/
theorem moveOut_of_refused (h : w.Sound) {e : Entity} {a : Archetype T} {values : List V}
    (hhas : w.Has e.item a values) {error : StoreError} (hrefuses : w.RefusesLeave a error) :
    ∃ store, w.moveOut e a (w.idOf e) = (.error error, w.withStore store) ∧
      w.store.Alike store ∧ w.Effect (w.withStore store) [] [] [] := by
  obtain ⟨chunk, row, hseat⟩ := hhas
  unfold moveOut
  rcases hrefuses with hlacks | ⟨hfinds, hmemory⟩
  · rw [evict_of_crowded h hseat hlacks]
    exact ⟨w.store, rfl, .refl _, Effect.refl h⟩
  · obtain ⟨hholds, -⟩ := accepts_of_seat h hseat
    obtain ⟨store, hevict, halike, heffect⟩ := evict_of_rejected h hseat hfinds
      (fun v => if holds e v then do
          allocateAll w.store.memory a.types
          if w.isAtRest e v then (.ok () : Except StoreError Unit) else .error .entityNotFound
        else .error .entityNotFound)
      error (by simp only [hholds, if_true, hmemory, bind, Except.bind])
    rw [hevict]
    exact ⟨store, rfl, halike, heffect⟩

omit [DecidableEq T] in
/-- Otherwise it leaves its row with all its components. -/
theorem moveOut_of_granted (h : w.Sound) {e : Entity} {a : Archetype T} {values : List V}
    (hhas : w.Has e.item a values) (hfinds : w.store.FindsRoom a.partition)
    (hmemory : allocateAll w.store.memory a.types = .ok ()) :
    ∃ w', w.moveOut e a (w.idOf e) = (.ok (a.types.zip values), w') ∧
      w.Effect w' [e.item] [e.item] [] := by
  obtain ⟨chunk, row, hseat⟩ := hhas
  obtain ⟨hholds, hrest⟩ := accepts_of_seat h hseat
  obtain ⟨evicted, store, hevict, hvalues, hout⟩ := evict_of_seat h hseat hfinds
    (fun v => if holds e v then do
        allocateAll w.store.memory a.types
        if w.isAtRest e v then .ok () else .error .entityNotFound
      else .error .entityNotFound) ()
    (by simp [hholds, hrest, hmemory, bind, Except.bind])
  have hflag := flag_effect hout.sound (List.mem_singleton.mpr rfl : e.item ∈ [e.item])
    SlotId.reserve
  refine ⟨(w.withStore store).flag e SlotId.reserve, ?_, by
    simpa only [List.append_nil] using hout.trans hflag⟩
  unfold moveOut
  simp only [hevict, hvalues]

omit [DecidableEq T] in
/-- The memory has what it takes to leave a row, or refuses it. -/
theorem leave_or_refused (w : World T V) (a : Archetype T) :
    w.store.FindsRoom a.partition ∧ allocateAll w.store.memory a.types = .ok () ∨
      ∃ error, w.RefusesLeave a error := by
  rcases w.store.findsRoom_or_lacksRoom a.partition with hfinds | ⟨error, hlacks⟩
  · cases hmemory : allocateAll w.store.memory a.types with
    | ok => exact .inl ⟨hfinds, rfl⟩
    | error error => exact .inr ⟨error, .inr ⟨hfinds, hmemory⟩⟩
  · exact .inr ⟨error, .inl hlacks⟩

/-- An entity on its way gets a row of the target with the components it carries and those
it gains. Where the target has no room it is destroyed. -/
theorem finishMove_cases {e : Entity} (h : w.SoundBut [e.item])
    (hitem : e.item < w.store.ids.size) {target : Archetype T}
    (htarget : w.catalog.archetype? target.key = some target) {carried gained : Bundle T V}
    (htypes : (Bundle.types (carried ++ gained)).Perm target.types) :
    (∃ w' values, w.finishMove e target carried gained = (.ok (), w') ∧
        w.Effect w' [] [e.item] [] ∧ w'.Has e.item target values ∧
        (target.types.zip values).Perm (carried ++ gained)) ∨
      ∃ error w', w.finishMove e target carried gained = (.error error, w') ∧
        w.NoRoom target error ∧ w.Effect w' [] [e.item] carried.values ∧
        ¬ w'.Lives e.item := by
  unfold finishMove
  cases hmove : w.moveIn target e.item (carried ++ gained) with
  | mk answer w₁ =>
    cases answer with
    | ok id =>
      obtain ⟨heffect, values, hhas, hperm⟩ := moveIn_ok h hitem htarget hmove
      exact .inl ⟨w₁, values, rfl, heffect, hhas, hperm⟩
    | error error =>
      obtain ⟨heffect, hdeclines, -⟩ := moveIn_error h htarget hmove
      have hflag := flag_effect heffect.sound (List.mem_singleton.mpr rfl : e.item ∈ [e.item])
        SlotId.detach
      have hdead := not_lives_detach w₁ (e := e) (by rw [heffect.items]; exact hitem)
      -- There is no way back to the old row. The entity is lost with what it carries.
      have hdrop := ((hflag.sound.settle hdead).drop_effect carried.values).mono
        (List.nil_subset [e.item])
      refine .inr ⟨error, _, rfl, hdeclines.noRoom h htarget htypes, ?_, hdead⟩
      simpa only [List.append_nil] using heffect.trans (hflag.trans hdrop)

/-- Listing a type once leaves only one reason to refuse a set. -/
theorem stopsGrowth_of_nodup {ts : List T} {e : StoreError}
    (h : TypeRegistry.RefusesSet ts e) (hnodup : ts.Nodup) : e.StopsGrowth := by
  rcases h with ⟨t, htwice, -⟩ | hstops
  · have := List.nodup_iff_count.mp hnodup t
    omega
  · exact hstops

/-- The move of an entity from its archetype to that of a set is refused while the entity is
in its row still: the set has no archetype and gets none, or the memory refuses what it takes
to leave the row. -/
inductive HaltsMove (w : World T V) (a : Archetype T) (ts : List T) (error : StoreError) :
    Prop where
  | unready {catalog : Catalog T V} (refused : w.catalog.ensure ts = (.error error, catalog))
  | held {target : Archetype T} {catalog : Catalog T V}
      (ready : w.catalog.ensure ts = (.ok target, catalog))
      (refuses : RefusesLeave { w with catalog } a error)

/-- The move is refused when the entity has left its row: the archetype of the set is there,
and has no room. -/
inductive StrandsMove (w : World T V) (e : Entity) (a : Archetype T) (ts : List T)
    (error : StoreError) : Prop where
  | full {target : Archetype T} {catalog : Catalog T V} {carried : Bundle T V} {w₁ : World T V}
      (ready : w.catalog.ensure ts = (.ok target, catalog))
      (left : moveOut { w with catalog } e a (w.idOf e) = (.ok carried, w₁))
      (full : w₁.NoRoom target error)

/-- How the move of a live entity from its archetype to that of a set may end, for the
components it had and those it is to have: it has them, nothing happened, or it is
destroyed. -/
inductive Migrated (w : World T V) (e : Entity) (a : Archetype T) (ts : List T)
    (before after : Bundle T V) : Except StoreError Unit → World T V → Prop where
  | moved {w' : World T V} {target : Archetype T} {values : List V}
      (effect : w.Effect w' [] [e.item] []) (has : w'.Has e.item target values)
      (perm : (target.types.zip values).Perm after) :
      Migrated w e a ts before after (.ok ()) w'
  | stayed {w' : World T V} {error : StoreError} (halts : w.HaltsMove a ts error)
      (stops : error.StopsGrowth) (effect : w.Effect w' [] [] []) :
      Migrated w e a ts before after (.error error) w'
  | lost {w' : World T V} {error : StoreError} {gone : List V}
      (strands : w.StrandsMove e a ts error) (stops : error.StopsGrowth)
      (effect : w.Effect w' [] [e.item] gone) (dead : ¬ w'.Lives e.item)
      (perm : gone.Perm before.values) : Migrated w e a ts before after (.error error) w'

omit [DecidableEq T] in
/-- What an item has it keeps where no item is touched. -/
theorem Effect.has {out : List Nat} {gone : List V} (h : w.Effect w' out [] gone) {item : Nat}
    {a : Archetype T} {values : List V} (hhas : w.Has item a values) : w'.Has item a values :=
  (h.keeps item List.not_mem_nil a values).mp hhas

omit [ComponentType T] [DecidableEq T] in
/-- The seat of an entity stays where it is while the catalog grows. -/
theorem idOf_of_grows {catalog : Catalog T V} (hgrows : w.catalog.Grows catalog) (e : Entity) :
    idOf { w with catalog } e = w.idOf e := hgrows.store.idOf e.item

theorem Migrated.ne_entityNotFound {e : Entity} {a : Archetype T} {ts : List T}
    {before after : Bundle T V} {result : Except StoreError Unit}
    (h : w.Migrated e a ts before after result w') : result ≠ .error .entityNotFound := by
  intro heq
  cases h with
  | moved => cases heq
  | stayed _ stops => exact stops.ne_entityNotFound (Except.error.inj heq)
  | lost _ stops => exact stops.ne_entityNotFound (Except.error.inj heq)

/-- An entity that is to move to an archetype that is there leaves its row, and gets a row of
that archetype or is stranded. Or else it is held back in its row. -/
theorem departure_cases (h : w.Sound) {e : Entity} {a : Archetype T} {values : List V}
    (hhas : w.Has e.item a values) {ts : List T} {target : Archetype T} {catalog : Catalog T V}
    (hensure : w.catalog.ensure ts = (.ok target, catalog)) :
    (∃ w₁, moveOut { w with catalog } e a (w.idOf e) = (.ok (a.types.zip values), w₁) ∧
      ∀ carried gained : Bundle T V, (Bundle.types (carried ++ gained)).Perm ts →
        (∃ w₂ values', w₁.finishMove e target carried gained = (.ok (), w₂) ∧
            w.Effect w₂ [] [e.item] [] ∧ w₂.Has e.item target values' ∧
            (target.types.zip values').Perm (carried ++ gained)) ∨
          ∃ error w₂, w₁.finishMove e target carried gained = (.error error, w₂) ∧
            w.StrandsMove e a ts error ∧ error.StopsGrowth ∧
            w.Effect w₂ [] [e.item] carried.values ∧ ¬ w₂.Lives e.item) ∨
      ∃ error w₁, moveOut { w with catalog } e a (w.idOf e) = (.error error, w₁) ∧
        w.HaltsMove a ts error ∧ error.StopsGrowth ∧ w.Effect w₁ [] [] [] := by
  obtain ⟨hwf, hstore, hgrows, htarget, hperm⟩ := Catalog.ensure_ok h.catalog h.store hensure
  have hgrown := h.grow hwf hstore hgrows
  rcases leave_or_refused { w with catalog } a with ⟨hfinds, hmemory⟩ | ⟨error, hrefuses⟩
  · obtain ⟨w₁, hout, heffect⟩ :=
      moveOut_of_granted hgrown.sound (hgrown.has hhas) hfinds hmemory
    rw [idOf_of_grows hgrows e] at hout
    refine .inl ⟨w₁, hout, fun carried gained htypes => ?_⟩
    have hitem : e.item < w₁.store.ids.size := by
      rw [heffect.items, hgrown.items]
      exact (h.lives_of_has hhas).1.1
    have harchetype := heffect.archetypes _ _ htarget
    have hall := (hgrown.mono (List.nil_subset [e.item])).trans heffect
    rcases finishMove_cases heffect.sound hitem harchetype (htypes.trans hperm.symm) with
      ⟨w₂, values', hfinish, harrives, hhas', hperm'⟩ | ⟨error, w₂, hfinish, hfull, hlost, hdead⟩
    · exact .inl ⟨w₂, values', hfinish,
        by simpa only [List.append_nil] using hall.trans harrives, hhas', hperm'⟩
    · exact .inr ⟨error, w₂, hfinish, .full hensure hout hfull,
        (hfull.cannotGrow heffect.sound harchetype).stopsGrowth,
        by simpa only [List.append_nil] using hall.trans hlost, hdead⟩
  · obtain ⟨store, hout, -, heffect⟩ :=
      moveOut_of_refused hgrown.sound (hgrown.has hhas) hrefuses
    rw [idOf_of_grows hgrows e] at hout
    exact .inr ⟨error, _, hout, .held hensure hrefuses, hrefuses.stopsGrowth hgrown.sound,
      by simpa only [List.append_nil] using hgrown.trans heffect⟩

/-- Gaining a component that the entity does not have. -/
theorem gain_cases (h : w.Sound) {e : Entity} {a : Archetype T} {values : List V}
    (hhas : w.Has e.item a values) {t : T} (ht : t ∉ a.types) (value : V) :
    ∃ result w', w.gain e a (w.idOf e) t value = (result, w') ∧
      w.Migrated e a (a.types ++ [t]) (a.types.zip values) (a.types.zip values ++ [(t, value)])
        result w' := by
  -- The new set lists no type twice, so only growth can be refused.
  have hnodup : (a.types ++ [t]).Nodup := by
    rw [List.nodup_append]
    refine ⟨types_nodup_of_has h hhas, List.pairwise_singleton .., ?_⟩
    rintro t' ht' t'' ht'' rfl
    rw [List.mem_singleton] at ht''
    exact ht (ht'' ▸ ht')
  unfold gain
  cases hensure : w.catalog.ensure (a.types ++ [t]) with
  | mk answer catalog =>
    cases answer with
    | error error =>
      obtain ⟨hwf, hstore, hgrows, hwhy⟩ := Catalog.ensure_error h.catalog h.store hensure
      exact ⟨_, _, rfl, .stayed (.unready hensure) (stopsGrowth_of_nodup hwhy hnodup)
        (h.grow hwf hstore hgrows)⟩
    | ok target =>
      simp only
      rcases departure_cases h hhas hensure with
        ⟨w₁, hout, hfinishes⟩ | ⟨error, w₁, hout, hhalts, hstops, heffect⟩
      · rw [hout]
        have htypes : (Bundle.types (a.types.zip values ++ [(t, value)])).Perm
            (a.types ++ [t]) := by
          rw [Bundle.types_zip_append (h.archetype_of_has hhas).2.2.2.2]
        rcases hfinishes _ _ htypes with
          ⟨w₂, values', hfinish, heffect, hhas', hperm⟩ | ⟨error, w₂, hfinish, hstrands, hstops,
            heffect, hdead⟩
        · exact ⟨_, _, hfinish, .moved heffect hhas' hperm⟩
        · exact ⟨_, _, hfinish, .lost hstrands hstops heffect hdead (List.Perm.refl _)⟩
      · rw [hout]
        exact ⟨_, _, rfl, .stayed hhalts hstops heffect⟩

/-- Losing a component that the entity has. -/
theorem lose_cases (h : w.Sound) {e : Entity} {a : Archetype T} {values : List V}
    (hhas : w.Has e.item a values) {t : T} {value : V}
    (hlookup : (a.types.zip values).lookup t = some value) :
    ∃ result w', w.lose e a (w.idOf e) t = (result.map fun _ => value, w') ∧
      w.Migrated e a (a.types.filter (· ≠ t)) (a.types.zip values)
        ((a.types.zip values).eraseP (·.1 == t)) result w' := by
  have hnodup := types_nodup_of_has h hhas
  unfold lose
  cases hensure : w.catalog.ensure (a.types.filter (· ≠ t)) with
  | mk answer catalog =>
    cases answer with
    | error error =>
      obtain ⟨hwf, hstore, hgrows, hwhy⟩ := Catalog.ensure_error h.catalog h.store hensure
      exact ⟨.error error, _, rfl,
        .stayed (.unready hensure)
          (stopsGrowth_of_nodup hwhy (hnodup.sublist List.filter_sublist))
          (h.grow hwf hstore hgrows)⟩
    | ok target =>
      simp only
      rcases departure_cases h hhas hensure with
        ⟨w₁, hout, hfinishes⟩ | ⟨error, w₁, hout, hhalts, hstops, heffect⟩
      · rw [hout]
        simp only [hlookup]
        have hleft : (Bundle.types ((a.types.zip values).eraseP (·.1 == t) ++ [])).Perm
            (a.types.filter (· ≠ t)) := by
          have htypes := Bundle.types_zip (h.archetype_of_has hhas).2.2.2.2
          rw [List.append_nil, Bundle.types_eraseP (htypes.symm ▸ hnodup), htypes]
        rcases hfinishes _ _ hleft with
          ⟨w₂, values', hfinish, heffect, hhas', hperm⟩ | ⟨error, w₂, hfinish, hstrands, hstops,
            heffect, hdead⟩
        · rw [List.append_nil] at hperm
          exact ⟨.ok (), w₂, by rw [hfinish]; rfl, .moved heffect hhas' hperm⟩
        · -- The value that it was to lose is dropped too.
          have hdrop := (heffect.sound.drop_effect [value]).mono (List.nil_subset [e.item])
          have hgone : w.Effect (w₂.drop [value]) [] [e.item]
              ([value] ++ Bundle.values ((a.types.zip values).eraseP (·.1 == t))) := by
            simpa only [List.append_nil] using heffect.trans hdrop
          exact ⟨.error error, w₂.drop [value], by rw [hfinish]; rfl,
            .lost hstrands hstops hgone hdead
              (Bundle.values_perm (Bundle.perm_cons_eraseP hlookup)).symm⟩
      · rw [hout]
        exact ⟨.error error, _, rfl, .stayed hhalts hstops heffect⟩

/-! ### Adding and removing -/

/-- A component that the entity has is replaced, and its old value is dropped. -/
theorem add_of_mem (h : w.Sound) {e : Entity} (he : e.world = w.number) {a : Archetype T}
    {values : List V} (hhas : w.Has e.item a values) {t : T} (ht : t ∈ a.types) (value : V) :
    ∃ slot old w', w.add e t value = (.ok (), w') ∧ a.types[slot]? = some t ∧
      values[slot]? = some old ∧ w.Effect w' [] [e.item] [old] ∧
        w'.Has e.item a (values.set slot value) := by
  obtain ⟨slot, old, hslot, htype, hold, -⟩ := value_of_mem h hhas ht
  have hlength := (h.archetype_of_has hhas).2.2.2.2
  obtain ⟨chunk, row, hseat⟩ := hhas
  obtain ⟨heffect, hhas'⟩ := rewrite_effect h hseat (values.set slot value)
    (by rw [List.length_set, hlength])
  have hdrop := (heffect.sound.drop_effect [old]).mono (List.nil_subset [e.item])
  have hgone := heffect.trans hdrop
  rw [List.append_nil] at hgone
  refine ⟨slot, old, _, ?_, htype, hold, hgone, ?_⟩
  · unfold add
    rw [access_of_seat h he hseat]
    · simp only [hslot, changeAt_of_seat h hseat hold fun _ => value]
    · simp only [hslot, changeAt_of_seat h hseat hold fun _ => value]
      intro heq
      cases heq
  · exact (heffect.sound.drop_effect [old]).has hhas'

/-- Adding a component of a type that the entity does not have is gaining it. A value that is
refused is dropped. -/
theorem add_eq_gain (h : w.Sound) {e : Entity} (he : e.world = w.number) {a : Archetype T}
    {values : List V} (hhas : w.Has e.item a values) {t : T} (ht : t ∉ a.types) (value : V) :
    w.add e t value =
      match w.gain e a (w.idOf e) t value with
      | (.ok (), w') => (.ok (), w')
      | (.error error, w') => (.error error, w'.drop [value]) := by
  have hslot := slot?_of_absent h hhas ht
  obtain ⟨result, w', hgain, hmigrated⟩ := gain_cases h hhas ht value
  obtain ⟨chunk, row, hseat⟩ := hhas
  unfold add
  rw [access_of_seat h he hseat]
  · cases result with
    | ok => simp only [hslot, hgain]
    | error error => simp only [hslot, hgain]
  · simp only [hslot, hgain]
    exact hmigrated.ne_entityNotFound

/-- Otherwise the entity moves to the archetype that has the type as well. A value that is
refused is dropped. -/
theorem add_of_absent (h : w.Sound) {e : Entity} (he : e.world = w.number) {a : Archetype T}
    {values : List V} (hhas : w.Has e.item a values) {t : T} (ht : t ∉ a.types) (value : V) :
    (∃ w', w.add e t value = (.ok (), w') ∧ w.Migrated e a (a.types ++ [t])
        (a.types.zip values) (a.types.zip values ++ [(t, value)]) (.ok ()) w') ∨
      ∃ error w', w.add e t value = (.error error, w'.drop [value]) ∧
        w.Migrated e a (a.types ++ [t]) (a.types.zip values)
          (a.types.zip values ++ [(t, value)]) (.error error) w' := by
  obtain ⟨result, w', hgain, hmigrated⟩ := gain_cases h hhas ht value
  have hadd := add_eq_gain h he hhas ht value
  rw [hgain] at hadd
  cases result with
  | ok => exact .inl ⟨w', hadd, hmigrated⟩
  | error error => exact .inr ⟨error, w', hadd, hmigrated⟩

theorem add_of_not_owns (h : w.Sound) {e : Entity} (hnot : ¬ w.Owns e) (t : T) (value : V) :
    w.add e t value = (.error .entityNotFound, w.drop [value]) := by
  unfold add
  rw [access_of_not_owns h hnot]

/-- Removing a component that the entity has is losing it. -/
theorem remove_eq_lose (h : w.Sound) {e : Entity} (he : e.world = w.number) {a : Archetype T}
    {values : List V} (hhas : w.Has e.item a values) {t : T} (ht : t ∈ a.types) :
    w.remove e t = w.lose e a (w.idOf e) t := by
  obtain ⟨slot, value, hslot, -, -, hlookup⟩ := value_of_mem h hhas ht
  obtain ⟨result, w', hlose, hmigrated⟩ := lose_cases h hhas hlookup
  obtain ⟨chunk, row, hseat⟩ := hhas
  unfold remove
  rw [access_of_seat h he hseat]
  · simp only [slotIn, hslot]
  · simp only [slotIn, hslot, hlose]
    intro heq
    apply hmigrated.ne_entityNotFound
    cases result with
    | ok => cases heq
    | error error => exact congrArg Except.error (Except.error.inj heq)

/-- A component that the entity has is given back, unless the move is refused. -/
theorem remove_of_mem (h : w.Sound) {e : Entity} (he : e.world = w.number) {a : Archetype T}
    {values : List V} (hhas : w.Has e.item a values) {t : T} {value : V}
    (hlookup : (a.types.zip values).lookup t = some value) :
    ∃ result w', w.Migrated e a (a.types.filter (· ≠ t)) (a.types.zip values)
        ((a.types.zip values).eraseP (·.1 == t)) result w' ∧
      w.remove e t = (result.map fun _ => value, w') := by
  have ht : t ∈ a.types := by
    apply Decidable.byContradiction
    intro ht
    rw [lookup_of_absent h hhas ht] at hlookup
    cases hlookup
  obtain ⟨result, w', hlose, hmigrated⟩ := lose_cases h hhas hlookup
  exact ⟨result, w', hmigrated, (remove_eq_lose h he hhas ht).trans hlose⟩

theorem remove_of_absent (h : w.Sound) {e : Entity} (he : e.world = w.number)
    {a : Archetype T} {values : List V} (hhas : w.Has e.item a values) {t : T}
    (ht : t ∉ a.types) :
    w.remove e t = (.error (.componentNotFound (ComponentType.name t)), w) := by
  have hslot := slot?_of_absent h hhas ht
  obtain ⟨chunk, row, hseat⟩ := hhas
  unfold remove
  rw [access_of_seat h he hseat]
  · simp only [slotIn, hslot]
  · simp only [slotIn, hslot]
    intro heq
    cases heq

theorem remove_of_not_owns (h : w.Sound) {e : Entity} (hnot : ¬ w.Owns e) (t : T) :
    w.remove e t = (.error .entityNotFound, w) := access_of_not_owns h hnot _

end World

end ArchetypeStore

import ArchetypeStore.Proofs.World.Moves

/-! # Reaching one entity

  Between two operations no entity is in transit. So an operation finds a live entity of
  the world in its row at the first look, and finds nothing for any other handle; its body
  runs once, on the seat of the entity.
-/

namespace ArchetypeStore

variable {T V α : Type}

namespace World

/-- The handle is of this world, and its entity was not destroyed. -/
def Owns (w : World T V) (e : Entity) : Prop := e.world = w.number ∧ w.Lives e.item

/-! ### The run of a body -/

theorem tryAccess_of_gone {w : World T V} {e : Entity} (h : w.locate e = .gone)
    (body : Body T V α) (rounds : Nat) :
    w.tryAccess e body (rounds + 1) = some (0, .error .entityNotFound, w) := by
  simp only [tryAccess, h]

/-- The body would run again only if it did not find the entity. -/
theorem tryAccess_of_found {w : World T V} {e : Entity} {a : Archetype T} {id : SlotId}
    (h : w.locate e = .found a id) {body : Body T V α}
    (hbody : (body w a id).1 ≠ .error .entityNotFound) (rounds : Nat) :
    w.tryAccess e body (rounds + 1) = some (1, body w a id) := by
  rw [tryAccess, h]
  simp only
  split
  · rename_i w' hgone
    rw [hgone] at hbody
    exact absurd rfl hbody
  · rfl

theorem access_of_gone {w : World T V} {e : Entity} (h : w.locate e = .gone)
    (body : Body T V α) : w.access e body = (.error .entityNotFound, w) := by
  rw [access, patience, tryAccess_of_gone h]

/-- A body that does not answer that the entity was not found runs once. -/
theorem access_of_found {w : World T V} {e : Entity} {a : Archetype T} {id : SlotId}
    (h : w.locate e = .found a id) {body : Body T V α}
    (hbody : (body w a id).1 ≠ .error .entityNotFound) : w.access e body = body w a id := by
  rw [access, patience, tryAccess_of_found h hbody]

variable [ComponentType T] {w : World T V} (h : w.Sound)

include h

/-! ### The place of an entity -/

theorem lives_iff {item : Nat} : w.Lives item ↔ ∃ a values, w.Has item a values := by
  constructor
  · exact fun hl => h.lives item hl List.not_mem_nil
  · rintro ⟨a, values, hhas⟩
    exact (h.lives_of_has hhas).1

theorem locate_of_seat {e : Entity} (he : e.world = w.number) {a : Archetype T}
    {chunk row : Nat} {values : List V} (hseat : w.Seat e.item a chunk row values) :
    w.locate e = .found a (w.idOf e) := by
  have hplain : (w.idOf e).isPlain = true := h.plain_of_seat hseat
  have hhome : w.home? e = some a := hseat.home
  simp [locate, he, SlotId.not_isDetached_of_isPlain hplain,
    SlotId.not_isReserved_of_isPlain hplain, hhome]

theorem locate_of_not_owns {e : Entity} (hnot : ¬ w.Owns e) : w.locate e = .gone := by
  unfold locate
  by_cases he : e.world = w.number
  · simp only [he, ne_eq, not_true_eq_false, if_false]
    by_cases hlt : e.item < w.store.ids.size
    · have hflag : (w.idOf e).isDetached = true := by
        cases hflag : (w.idOf e).isDetached with
        | true => rfl
        | false => exact absurd ⟨he, hlt, hflag⟩ hnot
      rw [if_pos hflag]
    · -- No item with this number was made: it has no home.
      have hhome : w.home? e = none := by
        have hnone : w.homes[e.item]? = none :=
          Array.getElem?_eq_none (by rw [h.homes]; exact Nat.le_of_not_lt hlt)
        unfold home?
        rw [hnone]
        rfl
      have hzero : w.idOf e = 0 := by
        have hnone : w.store.ids[e.item]? = none :=
          Array.getElem?_eq_none (Nat.le_of_not_lt hlt)
        unfold idOf RowStore.idOf
        rw [hnone]
        rfl
      rw [hhome, hzero]
      rfl
  · rw [if_pos he]

/-- What happens to an entity that is not reached. -/
theorem access_of_not_owns {e : Entity} (hnot : ¬ w.Owns e) (body : Body T V α) :
    w.access e body = (.error .entityNotFound, w) :=
  access_of_gone (locate_of_not_owns h hnot) body

/-- The body sees the seat of the entity. -/
theorem access_of_seat {e : Entity} (he : e.world = w.number) {a : Archetype T}
    {chunk row : Nat} {values : List V} (hseat : w.Seat e.item a chunk row values)
    {body : Body T V α} (hbody : (body w a (w.idOf e)).1 ≠ .error .entityNotFound) :
    w.access e body = body w a (w.idOf e) :=
  access_of_found (locate_of_seat h he hseat) hbody

theorem row_of_seat {e : Entity} {a : Archetype T} {chunk row : Nat} {values : List V}
    (hseat : w.Seat e.item a chunk row values) :
    w.store.row a.partition (w.idOf e) = .ok (w.store.view chunk row) := by
  have hlocate : w.store.locate a.partition (w.idOf e) = some (chunk, row) :=
    h.locate_of_seat hseat
  unfold RowStore.row
  rw [hlocate]

theorem valuesAt_of_seat {e : Entity} {a : Archetype T} {chunk row : Nat} {values : List V}
    (hseat : w.Seat e.item a chunk row values) :
    w.valuesAt e a (w.idOf e) = .ok (w.store.view chunk row, values) := by
  have hcell : (w.store.view chunk row).cell = some ⟨e.item, values⟩ := hseat.cell
  unfold valuesAt
  rw [row_of_seat h hseat]
  simp only [hcell, if_true]

/-! ### Reading -/

variable [DecidableEq T]

/-- The slot of a type in the home of an entity. -/
theorem slot?_of_has {item : Nat} {a : Archetype T} {values : List V}
    (hhas : w.Has item a values) (t : T) {slot : Nat} :
    a.slot? w.registry t = some slot ↔ a.types[slot]? = some t :=
  (h.archetype_of_has hhas).2.2.1.slot?_eq_some_iff h.catalog.registry

theorem slot?_of_absent {item : Nat} {a : Archetype T} {values : List V}
    (hhas : w.Has item a values) {t : T} (ht : t ∉ a.types) : a.slot? w.registry t = none :=
  ((h.archetype_of_has hhas).2.2.1.slot?_eq_none_iff h.catalog.registry).mpr ht

omit [DecidableEq T] in
theorem types_nodup_of_has {item : Nat} {a : Archetype T} {values : List V}
    (hhas : w.Has item a values) : a.types.Nodup :=
  (h.archetype_of_has hhas).2.2.1.types_nodup h.catalog.registry

/-- A type in the home of an entity has a slot, and a value there. -/
theorem value_of_mem {item : Nat} {a : Archetype T} {values : List V}
    (hhas : w.Has item a values) {t : T} (ht : t ∈ a.types) :
    ∃ slot value, a.slot? w.registry t = some slot ∧ a.types[slot]? = some t ∧
      values[slot]? = some value ∧ (a.types.zip values).lookup t = some value := by
  obtain ⟨slot, hslot⟩ := List.getElem?_of_mem ht
  have hlength := (h.archetype_of_has hhas).2.2.2.2
  have hlt : slot < values.length := by
    rw [hlength]
    exact (List.getElem?_eq_some_iff.mp hslot).1
  refine ⟨slot, values[slot], (slot?_of_has h hhas t).mpr hslot, hslot,
    List.getElem?_eq_getElem hlt, ?_⟩
  rw [Bundle.lookup_zip (types_nodup_of_has h hhas) values hslot]
  exact List.getElem?_eq_getElem hlt

theorem lookup_of_absent {item : Nat} {a : Archetype T} {values : List V}
    (hhas : w.Has item a values) {t : T} (ht : t ∉ a.types) :
    (a.types.zip values).lookup t = none := by
  rw [Bundle.lookup_eq_none_iff, Bundle.types_zip (h.archetype_of_has hhas).2.2.2.2]
  exact ht

/-- Reading a component of a live entity finds its value. -/
theorem read?_of_has {e : Entity} (he : e.world = w.number) {a : Archetype T} {values : List V}
    (hhas : w.Has e.item a values) (t : T) : w.read? e t = (a.types.zip values).lookup t := by
  obtain ⟨chunk, row, hseat⟩ := hhas
  have hhas : w.Has e.item a values := ⟨chunk, row, hseat⟩
  unfold read?
  by_cases ht : t ∈ a.types
  · obtain ⟨slot, value, hslot, -, hvalue, hlookup⟩ := value_of_mem h hhas ht
    have hbody : w.valueAt e a (w.idOf e) slot = .ok value := by
      unfold valueAt
      rw [valuesAt_of_seat h hseat]
      simp only [hvalue]
    rw [access_of_seat h he hseat]
    · simp only [slotIn, hslot, hbody, hlookup]
    · simp only [slotIn, hslot, hbody]
      intro heq
      cases heq
  · rw [lookup_of_absent h hhas ht, access_of_seat h he hseat]
    · simp only [slotIn, slot?_of_absent h hhas ht]
    · simp only [slotIn, slot?_of_absent h hhas ht]
      intro heq
      cases heq

theorem read?_of_not_owns {e : Entity} (hnot : ¬ w.Owns e) (t : T) : w.read? e t = none := by
  unfold read?
  rw [access_of_not_owns h hnot]

theorem has_of_has {e : Entity} {a : Archetype T} {values : List V}
    (hhas : w.Has e.item a values) (t : T) : w.has e t = decide (t ∈ a.types) := by
  obtain ⟨-, hflag⟩ := (h.lives_of_has hhas).1
  have hhome : w.home? e = some a := by
    obtain ⟨chunk, row, hseat⟩ := hhas
    exact hseat.home
  have hflag' : (w.idOf e).isDetached = false := hflag
  have hcontains : a.contains w.registry t = decide (t ∈ a.types) := by
    rw [Bool.eq_iff_iff, decide_eq_true_iff]
    exact (h.archetype_of_has hhas).2.2.1.contains_iff h.catalog.registry
  simp [has, isAlive, hhome, hflag', hcontains]

theorem has_of_not_lives {e : Entity} (hnot : ¬ w.Lives e.item) (t : T) :
    w.has e t = false := by
  unfold has isAlive
  by_cases hlt : e.item < w.store.ids.size
  · have hflag : (w.idOf e).isDetached = true := by
      cases hflag : (w.idOf e).isDetached with
      | true => rfl
      | false => exact absurd ⟨hlt, hflag⟩ hnot
    simp [hflag]
  · have hnone : w.homes[e.item]? = none :=
      Array.getElem?_eq_none (by rw [h.homes]; exact Nat.le_of_not_lt hlt)
    simp [home?, hnone]

end World

end ArchetypeStore

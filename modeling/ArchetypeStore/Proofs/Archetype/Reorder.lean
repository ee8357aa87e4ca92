import ArchetypeStore.Archetype.Reorder
import ArchetypeStore.Proofs.Archetype.Slots

/-! # Reordering is sorting by slot

  Each swap of the walk settles one more position, so there are never more swaps than
  components. When the walk ends without an error every position holds its own component;
  components of different types never make it stop with an error.
-/

namespace ArchetypeStore.Archetype

variable {T α : Type}

/-! ### Settled positions -/

/-- The position holds the component that belongs there. -/
def Settled (components : Array (Nat × (T × α))) (i : Nat) : Prop :=
  components[i]?.map (·.1) = some i

instance (components : Array (Nat × (T × α))) (i : Nat) : Decidable (Settled components i) :=
  inferInstanceAs (Decidable (_ = _))

/-- The number of positions that are not settled. -/
def unsettled (components : Array (Nat × (T × α))) : Nat :=
  (List.range components.size).countP fun i => !decide (Settled components i)

theorem unsettled_le (components : Array (Nat × (T × α))) :
    unsettled components ≤ components.size := by
  unfold unsettled
  exact Nat.le_trans List.countP_le_length (Nat.le_of_eq List.length_range)

/-- With no swap left, a position that is there is settled. -/
theorem settled_of_unsettled_eq_zero {components : Array (Nat × (T × α))}
    (h : unsettled components = 0) {i : Nat} (hi : i < components.size) : Settled components i := by
  have hzero := List.countP_eq_zero.mp h i (List.mem_range.mpr hi)
  simpa using hzero

/-- A count gets smaller when the property is lost somewhere and gained nowhere. -/
theorem countP_lt_countP {p q : Nat → Bool} {l : List Nat} (himp : ∀ i ∈ l, q i = true → p i = true)
    {i : Nat} (hi : i ∈ l) (hp : p i = true) (hq : q i = false) : l.countP q < l.countP p := by
  induction l with
  | nil => cases hi
  | cons j rest ih =>
    have hle : rest.countP q ≤ rest.countP p :=
      List.countP_mono_left fun k hk => himp k (List.mem_cons_of_mem _ hk)
    rcases List.mem_cons.mp hi with rfl | hrest
    · rw [List.countP_cons_of_pos hp, List.countP_cons_of_neg (by simp [hq])]
      omega
    · have hlt := ih (fun k hk => himp k (List.mem_cons_of_mem _ hk)) hrest
      by_cases hqj : q j = true
      · rw [List.countP_cons_of_pos hqj,
          List.countP_cons_of_pos (himp j (List.mem_cons_self ..) hqj)]
        omega
      · rw [List.countP_cons_of_neg hqj]
        rw [List.countP_cons]
        omega

/-- Bringing the component of an unsettled position to its slot settles that slot and
unsettles none. -/
theorem settled_swap {components : Array (Nat × (T × α))} {i slot : Nat} {component : T × α}
    (hi : components[i]? = some (slot, component)) (hne : slot ≠ i)
    (hslot : slot < components.size) (hunsettled : ¬ Settled components slot) :
    Settled (components.swapIfInBounds i slot) slot ∧
      (∀ j, Settled components j → Settled (components.swapIfInBounds i slot) j) ∧
        unsettled (components.swapIfInBounds i slot) < unsettled components := by
  have hlt := (Array.getElem?_eq_some_iff.mp hi).1
  have hget : (components.swapIfInBounds i slot)[slot]? = some (slot, component) := by
    rw [Array.getElem?_eq_getElem (by simpa using hslot),
      Array.getElem_swapIfInBounds_right hlt]
    rw [Array.getElem?_eq_getElem hlt] at hi
    exact hi
  have hsettled : Settled (components.swapIfInBounds i slot) slot := by
    rw [Settled, hget]
    rfl
  have hkeep : ∀ j, Settled components j → Settled (components.swapIfInBounds i slot) j := by
    intro j hj
    have hji : j ≠ i := by
      rintro rfl
      rw [Settled, hi] at hj
      exact hne (Option.some.inj hj)
    have hjs : j ≠ slot := by
      rintro rfl
      exact hunsettled hj
    by_cases hjlt : j < components.size
    · rw [Settled, Array.getElem?_eq_getElem (by simpa using hjlt),
        Array.getElem_swapIfInBounds_of_ne_of_ne hji hjs, ← Array.getElem?_eq_getElem hjlt]
      exact hj
    · rw [Settled, Array.getElem?_eq_none (by omega)] at hj
      cases hj
  refine ⟨hsettled, hkeep, ?_⟩
  unfold unsettled
  rw [Array.size_swapIfInBounds]
  refine countP_lt_countP (fun j _ hj => ?_) (List.mem_range.mpr hslot) (by simpa using hunsettled)
    (by simpa using hsettled)
  simp only [Bool.not_eq_true', decide_eq_false_iff_not] at hj ⊢
  exact fun hold => hj (hkeep j hold)

theorem swapIfInBounds_perm {β : Type} (xs : Array β) (i j : Nat) :
    (xs.swapIfInBounds i j).toList.Perm xs.toList := by
  rw [Array.swapIfInBounds_def]
  split
  · split
    · exact Array.perm_iff_toList_perm.mp (Array.swap_perm _ _)
    · exact List.Perm.refl _
  · exact List.Perm.refl _

/-- No component belongs to a slot that is not there. -/
def Bounded (components : Array (Nat × (T × α))) : Prop :=
  ∀ entry ∈ components.toList, entry.1 < components.size

theorem Bounded.perm {components components' : Array (Nat × (T × α))} (h : Bounded components)
    (hperm : components'.toList.Perm components.toList) : Bounded components' := by
  intro entry hentry
  have hlen := hperm.length_eq
  simp only [Array.length_toList] at hlen
  have := h entry (hperm.mem_iff.mp hentry)
  omega

/-- Each component stands with the slot of its type. -/
def Slotted (a : Archetype T) (entries : List (Nat × (T × α))) : Prop :=
  ∀ entry ∈ entries, a.types[entry.1]? = some entry.2.1

namespace Slotted

variable {a : Archetype T} {entries entries' : List (Nat × (T × α))} (h : a.Slotted entries)

include h

theorem perm (hperm : entries'.Perm entries) : a.Slotted entries' :=
  fun entry hentry => h entry (hperm.mem_iff.mp hentry)

theorem slot_lt {entry : Nat × (T × α)} (hentry : entry ∈ entries) :
    entry.1 < a.types.length := (List.getElem?_eq_some_iff.mp (h entry hentry)).1

theorem bounded (hlen : entries.length = a.types.length) : Bounded entries.toArray := by
  intro entry hentry
  rw [List.size_toArray, hlen]
  exact h.slot_lt hentry

/-- Slots and types stand side by side. -/
theorem map_types : (entries.map (·.1)).map (a.types[·]?) = (entries.map (·.2.1)).map some := by
  rw [List.map_map, List.map_map]
  exact List.map_congr_left h

/-- Where no type is listed twice, no slot is. -/
theorem slots_nodup (hnodup : (entries.map (·.2.1)).Nodup) : (entries.map (·.1)).Nodup := by
  have hsome : ((entries.map (·.1)).map (a.types[·]?)).Nodup := by
    rw [h.map_types]
    exact List.Pairwise.map some (fun x y hxy heq => hxy (Option.some.inj heq)) hnodup
  exact List.Pairwise.of_map _ (fun x y hxy heq => hxy (congrArg _ heq)) hsome

end Slotted

variable [ComponentType T]

/-! ### The walk -/

theorem settleAt_ok {components components' : Array (Nat × (T × α))} (hbound : Bounded components)
    {i : Nat} (hi : i < components.size) {swaps : Nat} (hswaps : unsettled components ≤ swaps)
    (h : settleAt components i swaps = (.ok (), components')) :
    components'.toList.Perm components.toList ∧ Settled components' i ∧
      ∀ j, Settled components j → Settled components' j := by
  induction swaps generalizing components with
  | zero =>
    cases h
    exact ⟨List.Perm.refl _, settled_of_unsettled_eq_zero (Nat.le_zero.mp hswaps) hi,
      fun _ hj => hj⟩
  | succ swaps ih =>
    unfold settleAt at h
    split at h
    · rename_i hnone
      have := Array.getElem?_eq_none_iff.mp hnone
      omega
    · rename_i slot component hget
      split at h
      · rename_i heq
        cases h
        refine ⟨List.Perm.refl _, ?_, fun _ hj => hj⟩
        rw [Settled, hget, heq]
        rfl
      · rename_i hne
        split at h
        · cases h
        · rename_i hunsettled
          have hmem : (slot, component) ∈ components.toList := by
            rw [← Array.getElem?_toList] at hget
            exact List.mem_of_getElem? hget
          have hslot : slot < components.size := hbound _ hmem
          -- The swap settles a position, so the swaps that are left are enough.
          obtain ⟨-, hkeep, hless⟩ := settled_swap hget hne hslot hunsettled
          have hperm := swapIfInBounds_perm components i slot
          obtain ⟨hperm', hsettled, hkeep'⟩ := ih (hbound.perm hperm) (by simpa using hi)
            (by omega) h
          exact ⟨hperm'.trans hperm, hsettled, fun j hj => hkeep' j (hkeep j hj)⟩

/-- Components of different slots never stop the walk. -/
theorem settleAt_of_nodup {components : Array (Nat × (T × α))}
    (hnodup : (components.toList.map (·.1)).Nodup) (i swaps : Nat) :
    ∃ components', settleAt components i swaps = (.ok (), components') := by
  induction swaps generalizing components with
  | zero => exact ⟨components, rfl⟩
  | succ swaps ih =>
    unfold settleAt
    split
    · exact ⟨components, rfl⟩
    · rename_i slot component hget
      split
      · exact ⟨components, rfl⟩
      · rename_i hne
        split
        · rename_i htwice
          -- Two components would belong to the same slot.
          exfalso
          obtain ⟨entry, hentry, heq⟩ := Option.map_eq_some_iff.mp htwice
          have hi : (components.toList.map (·.1))[i]? = some slot := by
            rw [List.getElem?_map, Array.getElem?_toList, hget]
            rfl
          have hslot : (components.toList.map (·.1))[slot]? = some slot := by
            rw [List.getElem?_map, Array.getElem?_toList, hentry]
            exact congrArg some heq
          have hlt := (List.getElem?_eq_some_iff.mp hi).1
          exact hne ((List.getElem?_inj hlt hnodup).mp (hi.trans hslot.symm)).symm
        · refine ih (List.Perm.nodup ?_ hnodup)
          exact ((swapIfInBounds_perm components i slot).map _).symm

theorem settleFrom_ok {components components' : Array (Nat × (T × α))}
    (hbound : Bounded components) {i count : Nat} (hcount : i + count ≤ components.size)
    (h : settleFrom components i count = (.ok (), components')) :
    components'.toList.Perm components.toList ∧
      (∀ j, i ≤ j → j < i + count → Settled components' j) ∧
        ∀ j, Settled components j → Settled components' j := by
  induction count generalizing components i with
  | zero =>
    cases h
    refine ⟨List.Perm.refl _, fun j hle hlt => ?_, fun _ hj => hj⟩
    omega
  | succ count ih =>
    unfold settleFrom at h
    split at h
    · cases h
    · rename_i components₁ hat
      obtain ⟨hperm₁, hsettled₁, hkeep₁⟩ :=
        settleAt_ok hbound (by omega) (unsettled_le components) hat
      have hsize : components₁.size = components.size := by
        simpa using hperm₁.length_eq
      obtain ⟨hperm, hsettled, hkeep⟩ := ih (hbound.perm hperm₁) (by omega) h
      refine ⟨hperm.trans hperm₁, fun j hle hlt => ?_, fun j hj => hkeep j (hkeep₁ j hj)⟩
      -- The first position was settled first and stays so.
      rcases Nat.eq_or_lt_of_le hle with rfl | hlater
      · exact hkeep _ hsettled₁
      · exact hsettled j hlater (by omega)

theorem settleFrom_of_nodup {components : Array (Nat × (T × α))} (hbound : Bounded components)
    (hnodup : (components.toList.map (·.1)).Nodup) {i count : Nat}
    (hcount : i + count ≤ components.size) :
    ∃ components', settleFrom components i count = (.ok (), components') := by
  induction count generalizing components i with
  | zero => exact ⟨components, rfl⟩
  | succ count ih =>
    obtain ⟨components₁, hat⟩ := settleAt_of_nodup hnodup i components.size
    obtain ⟨hperm₁, -, -⟩ := settleAt_ok hbound (by omega) (unsettled_le components) hat
    have hsize : components₁.size = components.size := by
      simpa using hperm₁.length_eq
    rw [settleFrom, hat]
    exact ih (hbound.perm hperm₁) (List.Perm.nodup (hperm₁.map _).symm hnodup) (by omega)

/-! ### Reordering -/

variable [DecidableEq T]

theorem withSlots_ok {a : Archetype T} {registry : TypeRegistry T} {components : List (T × α)}
    {slotted : List (Nat × (T × α))} (h : a.withSlots registry components = .ok slotted) :
    slotted.map (·.2) = components ∧
      ∀ entry ∈ slotted, a.slot? registry entry.2.1 = some entry.1 := by
  induction components generalizing slotted with
  | nil =>
    cases h
    exact ⟨rfl, fun entry hentry => nomatch hentry⟩
  | cons component rest ih =>
    unfold withSlots at h
    split at h
    · cases h
    · rename_i slot hslot
      split at h
      · cases h
      · rename_i slotted' hrest
        cases h
        obtain ⟨hmap, hslots⟩ := ih hrest
        refine ⟨congrArg (component :: ·) hmap, fun entry hentry => ?_⟩
        rcases List.mem_cons.mp hentry with rfl | hentry
        · exact hslot
        · exact hslots entry hentry

theorem withSlots_of_mem {a : Archetype T} {registry : TypeRegistry T} (hwf : a.Wf registry)
    (hreg : registry.Wf) {components : List (T × α)}
    (hmem : ∀ component ∈ components, component.1 ∈ a.types) :
    ∃ slotted, a.withSlots registry components = .ok slotted := by
  induction components with
  | nil => exact ⟨[], rfl⟩
  | cons component rest ih =>
    obtain ⟨slotted, hrest⟩ := ih fun c hc => hmem c (List.mem_cons_of_mem _ hc)
    obtain ⟨slot, hslot⟩ := List.getElem?_of_mem (hmem component (List.mem_cons_self ..))
    refine ⟨(slot, component) :: slotted, ?_⟩
    rw [withSlots, (hwf.slot?_eq_some_iff hreg).mpr hslot]
    simp only [hrest]

/-- What the slots are found for are the components, each of the type of its slot. -/
theorem withSlots_slotted {a : Archetype T} {registry : TypeRegistry T} (hwf : a.Wf registry)
    (hreg : registry.Wf) {components : List (T × α)} {slotted : List (Nat × (T × α))}
    (h : a.withSlots registry components = .ok slotted) :
    a.Slotted slotted ∧ slotted.map (·.2) = components ∧
      slotted.map (·.2.1) = Bundle.types components := by
  obtain ⟨hmap, hslots⟩ := withSlots_ok h
  refine ⟨fun entry hentry => (hwf.slot?_eq_some_iff hreg).mp (hslots entry hentry), hmap, ?_⟩
  rw [← hmap, Bundle.types, List.map_map]
  rfl

omit [ComponentType T] [DecidableEq T] in
/-- What settling all positions leaves is in slot order. -/
theorem types_of_settled {a : Archetype T} {settled : Array (Nat × (T × α))}
    (hslotted : a.Slotted settled.toList) (hlen : settled.size = a.types.length)
    (hall : ∀ i, i < settled.size → Settled settled i) :
    Bundle.types (settled.toList.map (·.2)) = a.types := by
  apply List.ext_getElem?
  intro i
  rw [Bundle.types, List.map_map, List.getElem?_map, Array.getElem?_toList]
  by_cases hi : i < settled.size
  · obtain ⟨entry, hentry, rfl⟩ := Option.map_eq_some_iff.mp (hall i hi)
    have hmem : entry ∈ settled.toList := by
      rw [← Array.getElem?_toList] at hentry
      exact List.mem_of_getElem? hentry
    rw [hentry, hslotted entry hmem]
    rfl
  · rw [Array.getElem?_eq_none (by omega), List.getElem?_eq_none (by omega)]
    rfl

/-- Components that fit come back in slot order, each with its value. -/
theorem reorder_ok {a : Archetype T} {registry : TypeRegistry T} (hwf : a.Wf registry)
    (hreg : registry.Wf) {components ordered : List (T × α)}
    (h : a.reorder registry components = (.ok (), ordered)) :
    Bundle.types ordered = a.types ∧ ordered.Perm components := by
  unfold reorder at h
  split at h
  · cases h
  · rename_i slotted hslots
    obtain ⟨hslotted, hmap, -⟩ := withSlots_slotted hwf hreg hslots
    have hlen' : slotted.length = components.length := by
      rw [← hmap, List.length_map]
    split at h
    · rename_i hlen
      cases hsettle : settleFrom slotted.toArray 0 slotted.length with
      | mk result settled =>
        rw [hsettle] at h
        cases h
        obtain ⟨hperm, hsettled, -⟩ :=
          settleFrom_ok (hslotted.bounded (hlen'.trans hlen)) (by simp) hsettle
        have hsize : settled.size = slotted.length := by simpa using hperm.length_eq
        refine ⟨types_of_settled (hslotted.perm hperm) (by omega) fun i hi => ?_, ?_⟩
        · exact hsettled i (Nat.zero_le i) (by omega)
        · rw [← hmap]
          exact hperm.map _
    · cases h

/-- Components with exactly the types of the archetype fit, whatever their order. -/
theorem reorder_of_perm {a : Archetype T} {registry : TypeRegistry T} (hwf : a.Wf registry)
    (hreg : registry.Wf) {components : List (T × α)}
    (hperm : (Bundle.types components).Perm a.types) :
    ∃ ordered, a.reorder registry components = (.ok (), ordered) := by
  have hmem : ∀ component ∈ components, component.1 ∈ a.types := fun component hc =>
    hperm.mem_iff.mp (List.mem_map_of_mem hc)
  obtain ⟨slotted, hslots⟩ := withSlots_of_mem hwf hreg hmem
  obtain ⟨hslotted, hmap, htypes⟩ := withSlots_slotted hwf hreg hslots
  have hlen : components.length = a.types.length := by
    rw [← hperm.length_eq, Bundle.types, List.length_map]
  have hlen' : slotted.length = a.types.length := by
    rw [← hlen, ← hmap, List.length_map]
  have hnodup : (slotted.map (·.1)).Nodup := by
    refine hslotted.slots_nodup ?_
    rw [htypes]
    exact hperm.symm.nodup (hwf.types_nodup hreg)
  have hcount : 0 + slotted.length ≤ slotted.toArray.size := by simp
  obtain ⟨settled, hsettle⟩ := settleFrom_of_nodup (hslotted.bounded hlen') hnodup hcount
  exact ⟨settled.toList.map (·.2), by simp only [reorder, hslots, hlen, if_true, hsettle]⟩

end ArchetypeStore.Archetype

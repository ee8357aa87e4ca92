import ArchetypeStore.Proofs.Archetype.Reorder
import Mathlib.Data.List.NodupEquivFin

/-! # Which components fit

  Components fit an archetype when their types are those of the archetype, in any order.
  Every other list is refused, and the refusal says what is wrong with it: the first
  component of a foreign type, or a type that is listed twice, or the first type that is
  missing. Whether it fits or not, no component gets lost, and the walk never looks at a
  position that is not there.

  A walk that is stopped has found two components for one slot. A list that is too short
  or too long is not walked at all; among components of known types, then, one type is
  listed twice or one is missing.
-/

namespace ArchetypeStore.Archetype

variable {T α : Type}

/-! ### Slots and types -/

namespace Slotted

variable {a : Archetype T} {entries : List (Nat × (T × α))} (h : a.Slotted entries)

include h

theorem types_nodup (ha : a.types.Nodup) (hnodup : (entries.map (·.1)).Nodup) :
    (entries.map (·.2.1)).Nodup := by
  rw [List.Nodup, List.pairwise_map] at hnodup ⊢
  refine hnodup.imp_of_mem fun {x y} hx hy hne heq => hne ?_
  have hlt := h.slot_lt hx
  refine (List.getElem?_inj hlt ha).mp ?_
  rw [h x hx, h y hy, heq]

/-- The slot of a type is taken when the type is listed. -/
theorem mem_slots_iff (ha : a.types.Nodup) {slot : Nat} {t : T} (ht : a.types[slot]? = some t) :
    slot ∈ entries.map (·.1) ↔ t ∈ entries.map (·.2.1) := by
  simp only [List.mem_map]
  constructor
  · rintro ⟨entry, hentry, rfl⟩
    rw [h entry hentry] at ht
    exact ⟨entry, hentry, Option.some.inj ht⟩
  · rintro ⟨entry, hentry, rfl⟩
    refine ⟨entry, hentry, (List.getElem?_inj (h.slot_lt hentry) ha).mp ?_⟩
    rw [h entry hentry, ht]

/-- A second component for a slot is a second one of its type. -/
theorem two_le_count [DecidableEq T] {front back : List (Nat × (T × α))} {slot : Nat}
    {component : T × α} (hsplit : entries = front ++ (slot, component) :: back)
    (htaken : slot ∈ front.map (·.1)) : 2 ≤ (entries.map (·.2.1)).count component.1 := by
  have htype := h (slot, component) (by simp [hsplit])
  obtain ⟨entry, hentry, rfl⟩ := List.mem_map.mp htaken
  have hsame : entry.2.1 = component.1 := by
    have hfirst := h entry (by simp [hsplit, hentry])
    rw [htype] at hfirst
    exact (Option.some.inj hfirst).symm
  have hfront : 1 ≤ (front.map (·.2.1)).count component.1 :=
    List.one_le_count_iff.mpr (hsame ▸ List.mem_map_of_mem hentry)
  rw [hsplit, List.map_append, List.count_append, List.map_cons, List.count_cons_self]
  omega

end Slotted

/-! ### Lists that are not walked -/

variable [DecidableEq T]

omit [DecidableEq T] in
/-- A type is reported twice when its slot was seen before. -/
theorem repeated?_some {seen : List Nat} {entries : List (Nat × (T × α))} {t : T}
    (h : repeated? seen entries = some t) : ∃ front slot component back,
      entries = front ++ (slot, component) :: back ∧ component.1 = t ∧
        (slot ∈ seen ∨ slot ∈ front.map (·.1)) := by
  induction entries generalizing seen with
  | nil => cases h
  | cons entry rest ih =>
    obtain ⟨slot, component⟩ := entry
    unfold repeated? at h
    split at h
    · rename_i hseen
      exact ⟨[], slot, component, rest, rfl, Option.some.inj h, .inl hseen⟩
    · obtain ⟨front, slot', component', back, rfl, ht, htaken⟩ := ih h
      refine ⟨(slot, component) :: front, slot', component', back, rfl, ht, ?_⟩
      rcases htaken with hseen | hfront
      · rcases List.mem_cons.mp hseen with rfl | hseen
        · exact .inr (List.mem_cons_self ..)
        · exact .inl hseen
      · exact .inr (List.mem_cons_of_mem _ hfront)

omit [DecidableEq T] in
/-- No type is reported twice when the slots are new and different. -/
theorem repeated?_none {seen : List Nat} {entries : List (Nat × (T × α))} :
    repeated? seen entries = none ↔
      (entries.map (·.1)).Nodup ∧ ∀ slot ∈ entries.map (·.1), slot ∉ seen := by
  induction entries generalizing seen with
  | nil => simp [repeated?]
  | cons entry rest ih =>
    obtain ⟨slot, component⟩ := entry
    unfold repeated?
    split
    · rename_i hseen
      simp [hseen]
    · rename_i hseen
      simp only [ih, List.map_cons, List.nodup_cons, List.mem_cons, not_or, forall_eq_or_imp]
      constructor
      · rintro ⟨hnodup, hnew⟩
        exact ⟨⟨fun hmem => (hnew slot hmem).1 rfl, hnodup⟩, hseen,
          fun s hs => (hnew s hs).2⟩
      · rintro ⟨⟨hslot, hnodup⟩, -, hnew⟩
        exact ⟨hnodup, fun s hs => ⟨fun heq => hslot (heq ▸ hs), hnew s hs⟩⟩

variable [ComponentType T]

/-- A type is missing, and those of the lower slots are not. -/
def LowestMissing (a : Archetype T) (ts : List T) (t : T) : Prop :=
  ∃ slot, a.types[slot]? = some t ∧ t ∉ ts ∧
    ∀ (lower : Nat) (t' : T), lower < slot → a.types[lower]? = some t' → t' ∈ ts

omit [ComponentType T] [DecidableEq T] in
/-- Different types of the archetype, but not all of them, leave a lowest slot open. -/
theorem exists_lowestMissing {a : Archetype T} (ha : a.types.Nodup)
    {entries : List (Nat × (T × α))} (h : a.Slotted entries)
    (hmissing : ¬ a.types ⊆ entries.map (·.2.1)) :
    ∃ slot t, (List.range a.types.length).find? (fun slot => slot ∉ entries.map (·.1)) =
        some slot ∧ a.types[slot]? = some t ∧ a.LowestMissing (entries.map (·.2.1)) t := by
  cases hfind : (List.range a.types.length).find? fun slot => slot ∉ entries.map (·.1) with
  | none =>
    refine absurd (fun t ht => ?_) hmissing
    obtain ⟨slot, hslot⟩ := List.getElem?_of_mem ht
    have hlt := (List.getElem?_eq_some_iff.mp hslot).1
    have hall := List.find?_eq_none.mp hfind slot (List.mem_range.mpr hlt)
    simp only [decide_not, Bool.not_eq_true', decide_eq_false_iff_not, Decidable.not_not] at hall
    exact (h.mem_slots_iff ha hslot).mp hall
  | some slot =>
    rw [List.find?_range_eq_some] at hfind
    obtain ⟨hopen, hlt, hlower⟩ := hfind
    have hslot := List.getElem?_eq_getElem (List.mem_range.mp hlt)
    refine ⟨slot, _, rfl, hslot, slot, hslot, ?_, fun lower t' hless ht' => ?_⟩
    · rw [← h.mem_slots_iff ha hslot]
      simpa using hopen
    · rw [← h.mem_slots_iff ha ht']
      simpa using hlower lower hless

/-! ### The walk as it is taken -/

/-- Settling position `i`, swap after swap, for as long as it takes. Every position that is
looked at holds a component. -/
inductive Settles (i : Nat) : Array (Nat × (T × α)) → Except StoreError Unit →
    Array (Nat × (T × α)) → Prop where
  | done {components : Array (Nat × (T × α))} {component : T × α}
      (here : components[i]? = some (i, component)) : Settles i components (.ok ()) components
  | twice {components : Array (Nat × (T × α))} {slot : Nat} {component other : T × α}
      (here : components[i]? = some (slot, component)) (away : slot ≠ i)
      (there : components[slot]? = some (slot, other)) :
      Settles i components
        (.error (.duplicateComponentType (ComponentType.name component.1))) components
  | swap {components components' : Array (Nat × (T × α))} {slot slot' : Nat}
      {component other : T × α} {result : Except StoreError Unit}
      (here : components[i]? = some (slot, component)) (away : slot ≠ i)
      (there : components[slot]? = some (slot', other)) (free : slot' ≠ slot)
      (rest : Settles i (components.swapIfInBounds i slot) result components') :
      Settles i components result components'

/-- Settling positions in turn, up to the first error. -/
inductive Walks : List Nat → Array (Nat × (T × α)) → Except StoreError Unit →
    Array (Nat × (T × α)) → Prop where
  | done {components : Array (Nat × (T × α))} : Walks [] components (.ok ()) components
  | stop {i : Nat} {rest : List Nat} {components components' : Array (Nat × (T × α))}
      {e : StoreError} (first : Settles i components (.error e) components') :
      Walks (i :: rest) components (.error e) components'
  | next {i : Nat} {rest : List Nat} {components components₁ components' : Array (Nat × (T × α))}
      {result : Except StoreError Unit} (first : Settles i components (.ok ()) components₁)
      (others : Walks rest components₁ result components') :
      Walks (i :: rest) components result components'

omit [DecidableEq T] in
/-- The swaps that are granted are as many as it takes. -/
theorem settles_settleAt {components : Array (Nat × (T × α))} (hbound : Bounded components)
    {i : Nat} (hi : i < components.size) {swaps : Nat} (hswaps : unsettled components ≤ swaps) :
    Settles i components (settleAt components i swaps).1 (settleAt components i swaps).2 := by
  induction swaps generalizing components with
  | zero =>
    have hsettled := settled_of_unsettled_eq_zero (Nat.le_zero.mp hswaps) hi
    obtain ⟨⟨slot, component⟩, hget, rfl⟩ := Option.map_eq_some_iff.mp hsettled
    exact .done hget
  | succ swaps ih =>
    unfold settleAt
    split
    · rename_i hnone
      have := Array.getElem?_eq_none_iff.mp hnone
      omega
    · rename_i slot component hget
      split
      · rename_i heq
        exact .done (heq ▸ hget)
      · rename_i hne
        have hmem : (slot, component) ∈ components.toList := by
          rw [← Array.getElem?_toList] at hget
          exact List.mem_of_getElem? hget
        have hslot : slot < components.size := hbound _ hmem
        obtain ⟨⟨slot', other⟩, hthere⟩ : ∃ entry, components[slot]? = some entry :=
          ⟨_, Array.getElem?_eq_getElem hslot⟩
        split
        · rename_i htwice
          rw [hthere] at htwice
          cases htwice
          exact .twice hget hne hthere
        · rename_i hfree
          -- The swap settles a position, so the swaps that are left are enough.
          obtain ⟨-, -, hless⟩ := settled_swap hget hne hslot hfree
          refine .swap hget hne hthere (fun heq => hfree ?_) (ih ?_ (by simpa using hi) (by omega))
          · rw [hthere, heq]
            rfl
          · exact hbound.perm (swapIfInBounds_perm components i slot)

omit [DecidableEq T] in
theorem Settles.perm {i : Nat} {components components' : Array (Nat × (T × α))}
    {result : Except StoreError Unit} (h : Settles i components result components') :
    components'.toList.Perm components.toList := by
  induction h with
  | done => exact .refl _
  | twice => exact .refl _
  | swap _ _ _ _ _ ih => exact ih.trans (swapIfInBounds_perm ..)

omit [DecidableEq T] in
theorem walks_settleFrom {components : Array (Nat × (T × α))} (hbound : Bounded components)
    {i count : Nat} (hcount : i + count ≤ components.size) :
    Walks (List.range' i count) components (settleFrom components i count).1
      (settleFrom components i count).2 := by
  induction count generalizing components i with
  | zero => exact .done
  | succ count ih =>
    have hfirst := settles_settleAt hbound (by omega) (unsettled_le components) (i := i)
    rw [List.range'_succ]
    unfold settleFrom
    cases hat : settleAt components i components.size with
    | mk result components₁ =>
      rw [hat] at hfirst
      have hperm := hfirst.perm
      have hsize : components₁.size = components.size := by simpa using hperm.length_eq
      cases result with
      | error e => exact .stop hfirst
      | ok =>
        refine .next hfirst (ih (hbound.perm hperm) ?_)
        simp only
        omega

omit [DecidableEq T] in
theorem Walks.perm {positions : List Nat} {components components' : Array (Nat × (T × α))}
    {result : Except StoreError Unit} (h : Walks positions components result components') :
    components'.toList.Perm components.toList := by
  induction h with
  | done => exact .refl _
  | stop first => exact first.perm
  | next first _ ih => exact ih.trans first.perm

omit [DecidableEq T] in
/-- A walk is stopped where two components want one slot. -/
theorem Settles.error {i : Nat} {components components' : Array (Nat × (T × α))} {e : StoreError}
    (h : Settles i components (.error e) components') : ∃ slot component other,
      e = .duplicateComponentType (ComponentType.name component.1) ∧ slot ≠ i ∧
        components'[i]? = some (slot, component) ∧ components'[slot]? = some (slot, other) := by
  generalize hresult : (Except.error e : Except StoreError Unit) = result at h
  induction h with
  | done => cases hresult
  | @twice _ slot component other here away there =>
    cases hresult
    exact ⟨slot, component, other, rfl, away, here, there⟩
  | swap _ _ _ _ _ ih => exact ih hresult

omit [DecidableEq T] in
theorem Walks.error {positions : List Nat} {components components' : Array (Nat × (T × α))}
    {e : StoreError} (h : Walks positions components (.error e) components') :
    ∃ i, ∃ first, Settles i first (.error e) components' := by
  generalize hresult : (Except.error e : Except StoreError Unit) = result at h
  induction h with
  | done => cases hresult
  | stop first =>
    cases hresult
    exact ⟨_, _, first⟩
  | next _ _ ih => exact ih hresult

omit [ComponentType T] in
theorem two_le_count_of_getElem? {ts : List T} {i j : Nat} {t : T} (hlt : i < j)
    (hi : ts[i]? = some t) (hj : ts[j]? = some t) : 2 ≤ ts.count t := by
  obtain ⟨hi', rfl⟩ := List.getElem?_eq_some_iff.mp hi
  obtain ⟨hj', heq⟩ := List.getElem?_eq_some_iff.mp hj
  rw [← List.duplicate_iff_two_le_count, List.duplicate_iff_exists_distinct_get]
  exact ⟨⟨i, hi'⟩, ⟨j, hj'⟩, hlt, rfl, heq.symm⟩

/-- The type that stops a walk is listed twice. -/
theorem Walks.two_le_count {a : Archetype T} {positions : List Nat}
    {components components' : Array (Nat × (T × α))} {e : StoreError}
    (h : Walks positions components (.error e) components')
    (hslotted : a.Slotted components.toList) :
    ∃ t, 2 ≤ (components.toList.map (·.2.1)).count t ∧
      e = .duplicateComponentType (ComponentType.name t) := by
  obtain ⟨i, _, hstop⟩ := h.error
  obtain ⟨slot, component, other, rfl, hne, hi, hslot⟩ := hstop.error
  refine ⟨component.1, ?_, rfl⟩
  have hperm := h.perm
  have hslotted' := hslotted.perm hperm
  rw [← Array.getElem?_toList] at hi hslot
  -- Both components are of the type of the slot.
  have hsame : other.1 = component.1 := by
    have htype := hslotted' _ (List.mem_of_getElem? hi)
    rw [hslotted' _ (List.mem_of_getElem? hslot)] at htype
    exact Option.some.inj htype
  have hti : (components'.toList.map (·.2.1))[i]? = some component.1 := by
    rw [List.getElem?_map, hi]
    rfl
  have htslot : (components'.toList.map (·.2.1))[slot]? = some component.1 := by
    rw [List.getElem?_map, hslot, Option.map_some, hsame]
  rw [← (hperm.map (·.2.1)).count_eq]
  rcases Nat.lt_or_gt_of_ne hne with hlt | hlt
  · exact two_le_count_of_getElem? hlt htslot hti
  · exact two_le_count_of_getElem? hlt hti htslot

/-! ### What is answered for any list -/

/-- Reordering decides exactly whether components fit an archetype, and says why if they do
not. -/
structure ReordersExactly (a : Archetype T) (registry : TypeRegistry T)
    (components : List (T × α)) : Prop where
  accepted : (a.reorder registry components).1 = .ok () ↔
    (Bundle.types components).Perm a.types
  /-- Each component, its value with it, is at the slot of its type. -/
  placed : (a.reorder registry components).1 = .ok () → ∀ component ∈ components,
    ∃ slot, a.slot? registry component.1 = some slot ∧
      (a.reorder registry components).2[slot]? = some component
  kept : (a.reorder registry components).2.Perm components
  foreign : ∀ component, components.find? (fun component => component.1 ∉ a.types) =
      some component →
    (a.reorder registry components).1 =
      .error (.componentNotFound (ComponentType.name component.1))
  twice : (∀ component ∈ components, component.1 ∈ a.types) →
    ¬ (Bundle.types components).Nodup → ∃ t, 2 ≤ (Bundle.types components).count t ∧
      (a.reorder registry components).1 =
        .error (.duplicateComponentType (ComponentType.name t))
  missing : (∀ component ∈ components, component.1 ∈ a.types) →
    (Bundle.types components).Nodup → ¬ (Bundle.types components).Perm a.types →
      ∃ t, a.LowestMissing (Bundle.types components) t ∧
        (a.reorder registry components).1 = .error (.componentNotFound (ComponentType.name t))
  /-- Slots are within the archetype, which the walk and the search for a missing type rely
  on. -/
  bounded : ∀ slotted, a.withSlots registry components = .ok slotted →
    ∀ entry ∈ slotted, entry.1 < a.types.length
  /-- A list of the right length is walked from end to end, with as many swaps as that takes,
  and the walk looks at no position that is not there. -/
  walked : ∀ slotted, a.withSlots registry components = .ok slotted →
    components.length = a.types.length → ∃ settled,
      Walks (List.range components.length) slotted.toArray
        (a.reorder registry components).1 settled ∧
          (a.reorder registry components).2 = settled.toList.map (·.2)

theorem withSlots_of_foreign {a : Archetype T} {registry : TypeRegistry T} (hwf : a.Wf registry)
    (hreg : registry.Wf) {components : List (T × α)} {component : T × α}
    (hfind : components.find? (fun component => component.1 ∉ a.types) = some component) :
    a.withSlots registry components =
      .error (.componentNotFound (ComponentType.name component.1)) := by
  induction components with
  | nil => cases hfind
  | cons first rest ih =>
    unfold withSlots
    by_cases hmem : first.1 ∈ a.types
    · rw [List.find?_cons_of_neg (by simpa using hmem)] at hfind
      obtain ⟨slot, hslot⟩ := List.getElem?_of_mem hmem
      rw [(hwf.slot?_eq_some_iff hreg).mpr hslot]
      simp only [ih hfind]
    · rw [List.find?_cons_of_pos (by simpa using hmem)] at hfind
      cases hfind
      rw [(hwf.slot?_eq_none_iff hreg).mpr hmem]

section exact

variable {a : Archetype T} {registry : TypeRegistry T} (hwf : a.Wf registry) (hreg : registry.Wf)
  {components : List (T × α)}

include hwf hreg

/-- A list of the right length is settled by a walk over all positions. -/
theorem reorder_walks {slotted : List (Nat × (T × α))}
    (h : a.withSlots registry components = .ok slotted)
    (hlen : components.length = a.types.length) : ∃ settled,
      Walks (List.range components.length) slotted.toArray
        (a.reorder registry components).1 settled ∧
          (a.reorder registry components).2 = settled.toList.map (·.2) := by
  obtain ⟨hslotted, hmap, -⟩ := withSlots_slotted hwf hreg h
  have hsize : slotted.length = components.length := by rw [← hmap, List.length_map]
  have hwalk := walks_settleFrom (hslotted.bounded (hsize.trans hlen))
    (show 0 + slotted.length ≤ slotted.toArray.size by simp)
  refine ⟨(settleFrom slotted.toArray 0 slotted.length).2, ?_, ?_⟩
  · rw [List.range_eq_range', ← hsize]
    simpa only [reorder, h, hlen, if_true] using hwalk
  · simp only [reorder, h, hlen, if_true]

omit hwf hreg in
/-- A list of the wrong length is refused as it is. -/
theorem reorder_of_length_ne {slotted : List (Nat × (T × α))}
    (h : a.withSlots registry components = .ok slotted)
    (hlen : components.length ≠ a.types.length) :
    a.reorder registry components = (.error (a.mismatch slotted), components) := by
  simp only [reorder, h, hlen, if_false]

theorem reorder_perm : (a.reorder registry components).2.Perm components := by
  cases h : a.withSlots registry components with
  | error e => simp [reorder, h]
  | ok slotted =>
    by_cases hlen : components.length = a.types.length
    · obtain ⟨settled, hwalk, hleft⟩ := reorder_walks hwf hreg h hlen
      rw [hleft, ← (withSlots_slotted hwf hreg h).2.1]
      exact hwalk.perm.map _
    · rw [reorder_of_length_ne h hlen]

theorem reorder_ok_iff :
    (a.reorder registry components).1 = .ok () ↔ (Bundle.types components).Perm a.types := by
  constructor
  · intro hok
    obtain ⟨htypes, hperm⟩ := reorder_ok hwf hreg (Prod.ext hok rfl)
    rw [← htypes]
    exact (hperm.map _).symm
  · intro hperm
    obtain ⟨ordered, h⟩ := reorder_of_perm hwf hreg hperm
    rw [h]

theorem reorder_placed (hok : (a.reorder registry components).1 = .ok ()) {component : T × α}
    (hmem : component ∈ components) : ∃ slot, a.slot? registry component.1 = some slot ∧
      (a.reorder registry components).2[slot]? = some component := by
  obtain ⟨htypes, hperm⟩ := reorder_ok hwf hreg (Prod.ext hok rfl)
  obtain ⟨slot, hslot⟩ := List.getElem?_of_mem (hperm.mem_iff.mpr hmem)
  refine ⟨slot, (hwf.slot?_eq_some_iff hreg).mpr ?_, hslot⟩
  rw [← htypes, Bundle.types, List.getElem?_map, hslot]
  rfl

/-- Among components of known types, one that is listed twice is reported. -/
theorem reorder_twice (hmem : ∀ component ∈ components, component.1 ∈ a.types)
    (htwice : ¬ (Bundle.types components).Nodup) :
    ∃ t, 2 ≤ (Bundle.types components).count t ∧ (a.reorder registry components).1 =
      .error (.duplicateComponentType (ComponentType.name t)) := by
  obtain ⟨slotted, h⟩ := withSlots_of_mem hwf hreg hmem
  obtain ⟨hslotted, -, htypes⟩ := withSlots_slotted hwf hreg h
  have ha := hwf.types_nodup hreg
  by_cases hlen : components.length = a.types.length
  · obtain ⟨settled, hwalk, -⟩ := reorder_walks hwf hreg h hlen
    cases hresult : (a.reorder registry components).1 with
    | ok => exact absurd (((reorder_ok_iff hwf hreg).mp hresult).nodup_iff.mpr ha) htwice
    | error e =>
      rw [hresult] at hwalk
      obtain ⟨t, ht, rfl⟩ := hwalk.two_le_count hslotted
      exact ⟨t, htypes ▸ ht, rfl⟩
  · rw [reorder_of_length_ne h hlen]
    unfold mismatch
    cases hrepeated : repeated? [] slotted with
    | none =>
      refine absurd ?_ htwice
      rw [← htypes]
      exact hslotted.types_nodup ha (repeated?_none.mp hrepeated).1
    | some t =>
      obtain ⟨front, slot, component, back, hsplit, rfl, htaken⟩ := repeated?_some hrepeated
      refine ⟨component.1, ?_, rfl⟩
      rw [← htypes]
      exact hslotted.two_le_count hsplit (htaken.resolve_left List.not_mem_nil)

/-- Different known types, but not all of them, are reported by the lowest that is missing. -/
theorem reorder_missing (hmem : ∀ component ∈ components, component.1 ∈ a.types)
    (hnodup : (Bundle.types components).Nodup)
    (hperm : ¬ (Bundle.types components).Perm a.types) :
    ∃ t, a.LowestMissing (Bundle.types components) t ∧ (a.reorder registry components).1 =
      .error (.componentNotFound (ComponentType.name t)) := by
  obtain ⟨slotted, h⟩ := withSlots_of_mem hwf hreg hmem
  obtain ⟨hslotted, -, htypes⟩ := withSlots_slotted hwf hreg h
  have ha := hwf.types_nodup hreg
  have hsub : Bundle.types components ⊆ a.types := by
    intro t ht
    obtain ⟨component, hcomponent, rfl⟩ := List.mem_map.mp ht
    exact hmem component hcomponent
  -- As many different types as the archetype has would be all of them.
  have hlen : components.length ≠ a.types.length := by
    intro hlen
    refine hperm ((List.subperm_of_subset hnodup hsub).perm_of_length_le ?_)
    rw [Bundle.types, List.length_map, hlen]
  have hmissing : ¬ a.types ⊆ slotted.map (·.2.1) := by
    rw [htypes]
    intro hsup
    exact hperm ((List.perm_ext_iff_of_nodup hnodup ha).mpr fun t => ⟨fun ht => hsub ht,
      fun ht => hsup ht⟩)
  obtain ⟨slot, t, hfind, ht, hlowest⟩ := exists_lowestMissing ha hslotted hmissing
  have hrepeated : repeated? [] slotted = none :=
    repeated?_none.mpr ⟨hslotted.slots_nodup (htypes ▸ hnodup), fun _ _ => List.not_mem_nil⟩
  refine ⟨t, htypes ▸ hlowest, ?_⟩
  rw [reorder_of_length_ne h hlen]
  simp only [mismatch, hrepeated, hfind, ht, Option.map_some, Option.getD_some]

theorem Wf.reordersExactly (components : List (T × α)) :
    a.ReordersExactly registry components where
  accepted := reorder_ok_iff hwf hreg
  placed hok _ hmem := reorder_placed hwf hreg hok hmem
  kept := reorder_perm hwf hreg
  foreign component hfind := by
    rw [reorder, withSlots_of_foreign hwf hreg hfind]
  twice := reorder_twice hwf hreg
  missing := reorder_missing hwf hreg
  bounded slotted h entry hentry := (withSlots_slotted hwf hreg h).1.slot_lt hentry
  walked slotted h hlen := reorder_walks hwf hreg h hlen

end exact

end ArchetypeStore.Archetype

import ArchetypeStore.Proofs.Allocation
import ArchetypeStore.Proofs.DenseMap
import ArchetypeStore.TypeRegistry

/-! # What the registry promises

  Every registered type has a slot of its own in the table, so looking a type up and
  reading a type by its index are inverse to each other. Registering never changes an index
  that was given out. The table is no wider than 30 bits, so there are at most `2 ^ 30`
  types.
-/

namespace ArchetypeStore.TypeRegistry

variable {T : Type}

/-! ### Types by index -/

theorem type?_eq_some_iff {ix : TypeRegistry T} {index : Nat} {t : T} :
    ix.type? index = some t ↔ ∃ i, index = i + 1 ∧ ix.types[i]? = some t := by
  cases index with
  | zero => simp [type?]
  | succ i => simp [type?]

theorem type?_le {ix : TypeRegistry T} {index : Nat} {t : T} (h : ix.type? index = some t) :
    0 < index ∧ index ≤ ix.size := by
  obtain ⟨i, rfl, hi⟩ := type?_eq_some_iff.mp h
  have := (Array.getElem?_eq_some_iff.mp hi).1
  unfold size
  omega

/-- The second registry knows the types of the first under the same indices. -/
def Extends (ix ix' : TypeRegistry T) : Prop := ix.types.toList <+: ix'.types.toList

theorem Extends.refl (ix : TypeRegistry T) : ix.Extends ix := List.prefix_refl _

theorem Extends.withMemory (ix : TypeRegistry T) (m : Memory) : ix.Extends (ix.withMemory m) :=
  List.prefix_refl _

theorem Extends.trans {ix ix' ix'' : TypeRegistry T} (h : ix.Extends ix')
    (h' : ix'.Extends ix'') : ix.Extends ix'' := List.IsPrefix.trans h h'

theorem Extends.type? {ix ix' : TypeRegistry T} (h : ix.Extends ix') {index : Nat} {t : T}
    (ht : ix.type? index = some t) : ix'.type? index = some t := by
  obtain ⟨i, rfl, hi⟩ := type?_eq_some_iff.mp ht
  refine type?_eq_some_iff.mpr ⟨i, rfl, ?_⟩
  rw [← Array.getElem?_toList] at hi ⊢
  obtain ⟨rest, hrest⟩ := h
  rw [← hrest, List.getElem?_append_left (List.getElem?_eq_some_iff.mp hi).1, hi]

/-- The indices stand for the types, in order. -/
def Lists (ix : TypeRegistry T) (indices : List Nat) (ts : List T) : Prop :=
  indices.map ix.type? = ts.map some

theorem Lists.length {ix : TypeRegistry T} {indices : List Nat} {ts : List T}
    (h : ix.Lists indices ts) : indices.length = ts.length := by
  have := congrArg List.length h
  simpa using this

theorem Lists.nil (ix : TypeRegistry T) : ix.Lists [] [] := rfl

theorem Lists.cons {ix : TypeRegistry T} {index : Nat} {t : T} {indices : List Nat}
    {ts : List T} (h : ix.type? index = some t) (hrest : ix.Lists indices ts) :
    ix.Lists (index :: indices) (t :: ts) := by
  simp only [Lists, List.map_cons, h]
  exact congrArg _ hrest

theorem Lists.getElem? {ix : TypeRegistry T} {indices : List Nat} {ts : List T}
    (h : ix.Lists indices ts) {i index : Nat} (hi : indices[i]? = some index) :
    ∃ t, ts[i]? = some t ∧ ix.type? index = some t := by
  have hmap := congrArg (·[i]?) h
  simp only [List.getElem?_map, hi, Option.map_some] at hmap
  cases ht : ts[i]? with
  | none => simp [ht] at hmap
  | some t => exact ⟨t, rfl, by simpa [ht] using hmap⟩

theorem Lists.type_of_mem {ix : TypeRegistry T} {indices : List Nat} {ts : List T}
    (h : ix.Lists indices ts) {index : Nat} (hmem : index ∈ indices) :
    ∃ t ∈ ts, ix.type? index = some t := by
  obtain ⟨i, hi⟩ := List.getElem?_of_mem hmem
  obtain ⟨t, ht, hindex⟩ := h.getElem? hi
  exact ⟨t, List.mem_of_getElem? ht, hindex⟩

theorem Lists.index_of_mem {ix : TypeRegistry T} {indices : List Nat} {ts : List T}
    (h : ix.Lists indices ts) {t : T} (hmem : t ∈ ts) :
    ∃ index ∈ indices, ix.type? index = some t := by
  have hsome : some t ∈ indices.map ix.type? := by
    rw [h]
    exact List.mem_map.mpr ⟨t, hmem, rfl⟩
  obtain ⟨index, hindex, ht⟩ := List.mem_map.mp hsome
  exact ⟨index, hindex, ht⟩

theorem Lists.mono {ix ix' : TypeRegistry T} {indices : List Nat} {ts : List T}
    (h : ix.Lists indices ts) (hext : ix.Extends ix') : ix'.Lists indices ts := by
  unfold Lists
  rw [← h]
  refine List.map_congr_left fun index hindex => ?_
  obtain ⟨t, -, ht⟩ := h.type_of_mem hindex
  rw [ht, hext.type? ht]

/-! ### Well-formed registries -/

variable [ComponentType T]

theorem slotAt_lt (width : Nat) (hwidth : width ≤ 64) (t : T) : slotAt width t < 1 <<< width := by
  have hhash := (ComponentType.hash t).toNat_lt
  unfold slotAt
  simp only [Nat.one_shiftLeft]
  rw [Nat.div_lt_iff_lt_mul (Nat.two_pow_pos _), ← Nat.pow_add, Nat.add_sub_cancel' hwidth]
  exact hhash

/-- Types are distinct, and the table leads from the slot of each to its index. -/
structure Wf (ix : TypeRegistry T) : Prop where
  nodup : ix.types.toList.Nodup
  placed : ∀ i t, ix.types[i]? = some t →
    ix.table.lookup (slotAt ix.width t) = some (i + 1)
  width_le : ix.width ≤ ix.maxWidth
  maxWidth_le : ix.maxWidth ≤ maxBits

theorem create_wf {width maxWidth : Nat} {ix : TypeRegistry T}
    (h : create width maxWidth = .ok ix) : ix.Wf := by
  unfold create at h
  split at h
  · cases h
  · rename_i hbits
    cases halloc : allocateTable .ample width with
    | error e =>
      rw [halloc] at h
      cases h
    | ok block =>
      rw [halloc] at h
      cases h
      refine ⟨List.nodup_nil, fun i t hi => ?_, ?_, ?_⟩
      · simp at hi
      · simp only
        omega
      · simp only
        omega

/-- What is registered does not depend on how memory answers. -/
theorem Wf.withMemory {ix : TypeRegistry T} (h : ix.Wf) (m : Memory) : (ix.withMemory m).Wf :=
  ⟨h.nodup, h.placed, h.width_le, h.maxWidth_le⟩

namespace Wf

variable {ix : TypeRegistry T} (h : ix.Wf)

include h

theorem index_inj {i j : Nat} {t : T} (hi : ix.type? i = some t) (hj : ix.type? j = some t) :
    i = j := by
  obtain ⟨i', rfl, hi⟩ := type?_eq_some_iff.mp hi
  obtain ⟨j', rfl, hj⟩ := type?_eq_some_iff.mp hj
  have hplaced := h.placed i' t hi
  rw [h.placed j' t hj] at hplaced
  exact (Option.some.inj hplaced).symm

/-- Types have slots of their own, so there are no more of them than slots. -/
theorem size_le : ix.size ≤ 1 <<< maxBits := by
  have hwidth : ix.width ≤ 30 := Nat.le_trans h.width_le h.maxWidth_le
  -- The slot of a type leads to its index, so no two types share a slot.
  have hnodup : (ix.types.toList.map (slotAt ix.width)).Nodup := by
    rw [List.Nodup, List.pairwise_iff_getElem]
    intro i j hi hj hij heq
    rw [List.length_map] at hi hj
    rw [List.getElem_map, List.getElem_map] at heq
    have hslot : ∀ k (hk : k < ix.types.toList.length),
        ix.table.lookup (slotAt ix.width ix.types.toList[k]) = some (k + 1) := by
      intro k hk
      apply h.placed
      rw [← Array.getElem?_toList, List.getElem?_eq_getElem hk]
    have hi' := hslot i hi
    rw [heq, hslot j hj] at hi'
    have := Option.some.inj hi'
    omega
  have hsub : ix.types.toList.map (slotAt ix.width) ⊆ List.range (1 <<< ix.width) := by
    intro slot hslot
    obtain ⟨t, -, rfl⟩ := List.mem_map.mp hslot
    exact List.mem_range.mpr (slotAt_lt ix.width (by omega) t)
  have hlen := hnodup.length_le_of_subset hsub
  rw [List.length_map, List.length_range, Array.length_toList] at hlen
  simp only [Nat.one_shiftLeft] at hlen ⊢
  exact Nat.le_trans hlen (Nat.pow_le_pow_right (by decide) hwidth)

/-- Different types of a list have different indices. -/
theorem nodup_iff {indices : List Nat} {ts : List T} (hl : ix.Lists indices ts) :
    indices.Nodup ↔ ts.Nodup := by
  -- Indices and types stand side by side, and each determines the other.
  have hget : ∀ (i : Nat) (hi : i < indices.length) (ht : i < ts.length),
      ix.type? indices[i] = some ts[i] := by
    intro i hi ht
    obtain ⟨t, hti, hindex⟩ := hl.getElem? (List.getElem?_eq_getElem hi)
    rw [List.getElem?_eq_getElem ht] at hti
    rw [hindex, hti]
  have hlen := hl.length
  simp only [List.Nodup, List.pairwise_iff_getElem]
  constructor
  · intro hne i j hi hj hij heq
    have hi' := hget i (by omega) hi
    rw [heq] at hi'
    exact hne i j (by omega) (by omega) hij (h.index_inj hi' (hget j (by omega) hj))
  · intro hne i j hi hj hij heq
    have hi' := hget i hi (by omega)
    rw [heq, hget j hj (by omega)] at hi'
    exact hne i j (by omega) (by omega) hij (Option.some.inj hi').symm

end Wf

omit [ComponentType T] in
/-- An index occurs no more often than its type. -/
theorem Lists.count_le [DecidableEq T] {ix : TypeRegistry T} {indices : List Nat}
    {ts : List T} (h : ix.Lists indices ts) {index : Nat} {t : T}
    (ht : ix.type? index = some t) : indices.count index ≤ ts.count t := by
  induction indices generalizing ts with
  | nil => exact Nat.zero_le _
  | cons i rest ih =>
    cases ts with
    | nil => simp [Lists] at h
    | cons t' ts =>
      obtain ⟨hhead, hrest⟩ : ix.type? i = some t' ∧ ix.Lists rest ts := by
        simpa [Lists] using h
      have hle := ih hrest
      rw [List.count_cons, List.count_cons]
      by_cases heq : i = index
      · rw [heq, ht] at hhead
        cases hhead
        simpa [heq] using hle
      · rw [if_neg (by simpa using heq)]
        omega

/-! ### Registration -/

/-- Placing types keeps what is in the table and gives each type the slot it wants. -/
theorem place_some {width : Nat} {table table' : List (Nat × Nat)} {first : Nat} {ts : List T}
    (h : place width table first ts = some table') :
    (∀ slot index, table.lookup slot = some index → table'.lookup slot = some index) ∧
      ∀ i t, ts[i]? = some t → table'.lookup (slotAt width t) = some (first + i) := by
  induction ts generalizing table first with
  | nil =>
    cases h
    refine ⟨fun _ _ hslot => hslot, fun i t ht => ?_⟩
    simp at ht
  | cons t rest ih =>
    unfold place at h
    split at h
    · cases h
    · rename_i hfree
      -- The rest goes to slots that were free, so what was placed stays.
      obtain ⟨hkeep, hnew⟩ := ih h
      refine ⟨fun slot index hslot => hkeep slot index ?_, fun i t' ht' => ?_⟩
      · have hne : slot ≠ slotAt width t := by
          rintro rfl
          rw [hfree] at hslot
          cases hslot
        rw [List.lookup_cons, beq_false_of_ne hne]
        exact hslot
      · cases i with
        | zero =>
          cases ht'
          exact hkeep _ _ List.lookup_cons_self
        | succ i =>
          rw [hnew i t' ht']
          congr 1
          omega

/-- A wider table holds every type, the new one last. -/
theorem widen_ok {ix : TypeRegistry T} {new : T} {steps width width' : Nat}
    {table : List (Nat × Nat)} (h : ix.widen new steps width = .ok (width', table)) :
    width' ≤ width + steps ∧ place width' [] 1 (ix.types.toList ++ [new]) = some table := by
  induction steps generalizing width with
  | zero => cases h
  | succ steps ih =>
    unfold widen at h
    cases halloc : allocateTable ix.memory (width + 1) with
    | error e =>
      rw [halloc] at h
      cases h
    | ok block =>
      simp only [halloc, bind, Except.bind] at h
      split at h
      · rename_i table' hplace
        cases h
        exact ⟨by omega, hplace⟩
      · obtain ⟨hle, hplace⟩ := ih h
        exact ⟨by omega, hplace⟩

theorem widen_error {ix : TypeRegistry T} {new : T} {steps width : Nat} {e : StoreError}
    (h : ix.widen new steps width = .error e) : e.StopsGrowth := by
  induction steps generalizing width with
  | zero =>
    cases h
    exact .inl rfl
  | succ steps ih =>
    unfold widen at h
    cases halloc : allocateTable ix.memory (width + 1) with
    | error e' =>
      rw [halloc] at h
      cases h
      exact (Buffer.reserve_refused halloc).stopsGrowth
    | ok block =>
      simp only [halloc, bind, Except.bind] at h
      split at h
      · cases h
      · exact ih h

variable [DecidableEq T]

/-- Looking a type up and reading a type by its index are inverse to each other. -/
theorem Wf.index?_eq_some_iff {ix : TypeRegistry T} (h : ix.Wf) {t : T} {index : Nat} :
    ix.index? t = some index ↔ ix.type? index = some t := by
  unfold index?
  constructor
  · intro hindex
    split at hindex
    · split at hindex
      · rename_i htype
        cases hindex
        exact htype
      · cases hindex
    · cases hindex
  · intro htype
    obtain ⟨i, rfl, hi⟩ := type?_eq_some_iff.mp htype
    rw [h.placed i t hi]
    simp only
    rw [if_pos htype]

/-- A type that is new takes the next index and, in the table, a slot of its own. -/
theorem Wf.push {ix : TypeRegistry T} (h : ix.Wf) {t : T} (hnew : ix.index? t = none)
    {width : Nat} {table : List (Nat × Nat)} (hwidth : width ≤ ix.maxWidth)
    (hold : ∀ i t', ix.types[i]? = some t' → table.lookup (slotAt width t') = some (i + 1))
    (hslot : table.lookup (slotAt width t) = some (ix.size + 1)) :
    Wf { ix with types := ix.types.push t, width, table } ∧
      ix.Extends { ix with types := ix.types.push t, width, table } ∧
        type? { ix with types := ix.types.push t, width, table } (ix.size + 1) = some t := by
  have hmem : t ∉ ix.types.toList := by
    intro hmem
    obtain ⟨i, hi⟩ := List.getElem?_of_mem hmem
    rw [Array.getElem?_toList] at hi
    have hindex := h.index?_eq_some_iff.mpr (type?_eq_some_iff.mpr ⟨i, rfl, hi⟩)
    rw [hnew] at hindex
    cases hindex
  refine ⟨⟨?_, ?_, hwidth, h.maxWidth_le⟩, ?_, ?_⟩
  · rw [Array.toList_push, List.nodup_append]
    refine ⟨h.nodup, List.pairwise_singleton .., fun a ha b hb => ?_⟩
    rw [List.mem_singleton.mp hb]
    rintro rfl
    exact hmem ha
  · intro i t' hi
    rw [Array.getElem?_push] at hi
    split at hi
    · rename_i heq
      cases hi
      rw [heq]
      exact hslot
    · exact hold i t' hi
  · unfold Extends
    rw [Array.toList_push]
    exact List.prefix_append ..
  · refine type?_eq_some_iff.mpr ⟨ix.size, rfl, ?_⟩
    rw [Array.getElem?_push]
    exact if_pos rfl

theorem register_ok {ix ix' : TypeRegistry T} (h : ix.Wf) {t : T} {index : Nat}
    (hreg : ix.register t = (.ok index, ix')) :
    ix'.Wf ∧ ix.Extends ix' ∧ ix'.type? index = some t := by
  unfold register at hreg
  split at hreg
  · rename_i hindex
    cases hreg
    exact ⟨h, .refl ix, h.index?_eq_some_iff.mp hindex⟩
  · rename_i hnew
    split at hreg
    · rename_i hfree
      cases hreg
      refine h.push hnew h.width_le (fun i t' hi => ?_) List.lookup_cons_self
      have hplaced := h.placed i t' hi
      -- The slot of the new type was free, those of the others were not.
      have hne : slotAt ix.width t' ≠ slotAt ix.width t := by
        intro heq
        rw [heq, hfree] at hplaced
        cases hplaced
      rw [List.lookup_cons, beq_false_of_ne hne]
      exact hplaced
    · split at hreg
      · cases hreg
      · rename_i width table hwiden
        cases hreg
        -- The table is made anew, with every type in the slot that it wants there.
        obtain ⟨hle, hplace⟩ := widen_ok hwiden
        obtain ⟨-, hslots⟩ := place_some hplace
        have hwidth := h.width_le
        refine h.push hnew (by omega) (fun i t' hi => ?_) ?_
        · have hlt := (Array.getElem?_eq_some_iff.mp hi).1
          rw [hslots i t', Nat.add_comm]
          rw [List.getElem?_append_left (by simpa using hlt), Array.getElem?_toList]
          exact hi
        · rw [hslots ix.size t, Nat.add_comm]
          rw [List.getElem?_append_right (by simp [size])]
          simp [size]

/-- A registration is refused only when no table can be made, and then changes nothing. -/
theorem register_error {ix ix' : TypeRegistry T} {t : T} {e : StoreError}
    (hreg : ix.register t = (.error e, ix')) : ix' = ix ∧ e.StopsGrowth := by
  unfold register at hreg
  split at hreg
  · cases hreg
  · split at hreg
    · cases hreg
    · split at hreg
      · rename_i hwiden
        cases hreg
        exact ⟨rfl, widen_error hwiden⟩
      · cases hreg

/-- A type that is registered leaves those before it where they are. -/
theorem register_wf {ix : TypeRegistry T} (h : ix.Wf) (t : T) :
    (ix.register t).2.Wf ∧ ix.Extends (ix.register t).2 := by
  cases hreg : ix.register t with
  | mk answer ix' =>
    cases answer with
    | error e =>
      obtain ⟨rfl, -⟩ := register_error hreg
      exact ⟨h, .refl _⟩
    | ok index =>
      obtain ⟨h', hext, -⟩ := register_ok h hreg
      exact ⟨h', hext⟩

theorem register_known {ix : TypeRegistry T} (h : ix.Wf) {t : T} {index : Nat}
    (ht : ix.type? index = some t) : ix.register t = (.ok index, ix) := by
  simp [register, h.index?_eq_some_iff.mpr ht]

theorem registerAll_ok {ix ix' : TypeRegistry T} (h : ix.Wf) {ts : List T}
    {indices : List Nat} (hreg : ix.registerAll ts = (.ok indices, ix')) :
    ix'.Wf ∧ ix.Extends ix' ∧ ix'.Lists indices ts := by
  induction ts generalizing ix indices with
  | nil =>
    cases hreg
    exact ⟨h, .refl _, .nil _⟩
  | cons t rest ih =>
    unfold registerAll at hreg
    split at hreg
    · cases hreg
    · rename_i index ix₁ hfirst
      obtain ⟨hwf₁, hext₁, htype⟩ := register_ok h hfirst
      split at hreg
      · cases hreg
      · rename_i hrest
        cases hreg
        obtain ⟨hwf, hext, hlists⟩ := ih hwf₁ hrest
        exact ⟨hwf, hext₁.trans hext, .cons (hext.type? htype) hlists⟩

theorem registerAll_error {ix ix' : TypeRegistry T} (h : ix.Wf) {ts : List T} {e : StoreError}
    (hreg : ix.registerAll ts = (.error e, ix')) :
    ix'.Wf ∧ ix.Extends ix' ∧ e.StopsGrowth := by
  induction ts generalizing ix with
  | nil => cases hreg
  | cons t rest ih =>
    unfold registerAll at hreg
    split at hreg
    · rename_i hfirst
      cases hreg
      obtain ⟨rfl, hstops⟩ := register_error hfirst
      exact ⟨h, .refl _, hstops⟩
    · rename_i index ix₁ hfirst
      obtain ⟨hwf₁, hext₁, -⟩ := register_ok h hfirst
      split at hreg
      · rename_i hrest
        cases hreg
        obtain ⟨hwf, hext, hstops⟩ := ih hwf₁ hrest
        exact ⟨hwf, hext₁.trans hext, hstops⟩
      · cases hreg

/-! ### The hash of a set -/

/-- Why a set of types is refused: one is listed twice, or the store cannot grow. -/
def RefusesSet (ts : List T) (e : StoreError) : Prop :=
  (∃ t, 2 ≤ ts.count t ∧ e = .duplicateComponentType (ComponentType.name t)) ∨ e.StopsGrowth

theorem hashOf_ok {ix ix' : TypeRegistry T} (h : ix.Wf) {ts : List T} {hash : UInt64}
    (hhash : ix.hashOf ts = (.ok hash, ix')) :
    ix'.Wf ∧ ix.Extends ix' ∧ ∃ indices sorted, ix'.Lists indices ts ∧ indices.Nodup ∧
      sorted.Perm indices ∧ sorted.Pairwise (· < ·) ∧ hash = setHash sorted := by
  unfold hashOf at hhash
  split at hhash
  · cases hhash
  · rename_i indices ix₁ hall
    obtain ⟨hwf, hext, hlists⟩ := registerAll_ok h hall
    split at hhash
    · cases hhash
    · rename_i sorted hsort
      cases hhash
      obtain ⟨hnodup, hperm, hascending⟩ := CountingSort.sort_ok hsort
      exact ⟨hwf, hext, indices, sorted, hlists, hnodup, hperm, hascending, rfl⟩

theorem hashOf_error {ix ix' : TypeRegistry T} (h : ix.Wf) {ts : List T} {e : StoreError}
    (hhash : ix.hashOf ts = (.error e, ix')) :
    ix'.Wf ∧ ix.Extends ix' ∧ RefusesSet ts e := by
  unfold hashOf at hhash
  split at hhash
  · rename_i hall
    cases hhash
    obtain ⟨hwf, hext, hstops⟩ := registerAll_error h hall
    exact ⟨hwf, hext, .inr hstops⟩
  · rename_i indices ix₁ hall
    obtain ⟨hwf, hext, hlists⟩ := registerAll_ok h hall
    split at hhash
    · rename_i e' hsort
      cases hhash
      refine ⟨hwf, hext, .inl ?_⟩
      -- Indices are within the capacity, so one of them is listed twice, and with it its type.
      rcases CountingSort.sort_error hsort with ⟨v, hv, hle, -⟩ | ⟨v, hv, rfl, htwice⟩
      · obtain ⟨t, -, ht⟩ := hlists.type_of_mem hv
        have := (type?_le ht).2
        omega
      · obtain ⟨t, -, ht⟩ := hlists.type_of_mem hv
        refine ⟨t, ?_, ?_⟩
        · exact Nat.le_trans htwice (hlists.count_le ht)
        · simp [nameDuplicate, typeName?, ht]
    · cases hhash

end ArchetypeStore.TypeRegistry

import ArchetypeStore.Proofs.TypeRegistry.Stability
import Mathlib.Order.Bounds.Basic

/-! # The width of the table

  The slot of a type is formed by the top bits of its hash, so types that have different
  slots in a table have different slots in every wider one. A table is made wider only when
  a new type meets an occupied slot, and then no wider than needed. Hence its width is at
  all times the least at which the registered types have slots of their own, whatever was
  registered in which order and whatever was refused on the way.

  A new type is refused exactly when it shares its slot in the widest table with a type
  that is registered; narrower tables have no room for it either. Memory is never the
  reason: even the widest table is far below the limit of one request.
-/

namespace ArchetypeStore.TypeRegistry

variable {T : Type} [ComponentType T]

/-! ### Slots at different widths -/

/-- The types have slots of their own in a table of this width. -/
def Apart (ts : List T) (width : Nat) : Prop := (ts.map (slotAt width)).Nodup

/-- A narrower table looks at fewer bits. -/
theorem slotAt_narrow {v w : Nat} (hle : v ≤ w) (hw : w ≤ 64) (t : T) :
    slotAt v t = slotAt w t / (1 <<< (w - v)) := by
  unfold slotAt
  rw [Nat.one_shiftLeft, Nat.one_shiftLeft, Nat.one_shiftLeft, Nat.div_div_eq_div_mul,
    ← Nat.pow_add]
  congr 2
  omega

theorem slotAt_congr {v w : Nat} (hle : v ≤ w) (hw : w ≤ 64) {t t' : T}
    (h : slotAt w t = slotAt w t') : slotAt v t = slotAt v t' := by
  rw [slotAt_narrow hle hw, slotAt_narrow hle hw, h]

theorem Apart.wider {ts : List T} {v w : Nat} (h : Apart ts v) (hle : v ≤ w) (hw : w ≤ 64) :
    Apart ts w := by
  rw [Apart, List.Nodup, List.pairwise_map] at h ⊢
  exact h.imp fun hne heq => hne (slotAt_congr hle hw heq)

theorem apart_concat {ts : List T} {t : T} {width : Nat} :
    Apart (ts ++ [t]) width ↔
      Apart ts width ∧ ∀ t' ∈ ts, slotAt width t' ≠ slotAt width t := by
  rw [Apart, List.map_append, List.nodup_append, ← Apart]
  simp

theorem Apart.perm {ts ts' : List T} {width : Nat} (h : Apart ts width) (hperm : ts'.Perm ts) :
    Apart ts' width := (hperm.map _).nodup_iff.mpr h

/-! ### Placing types -/

/-- Types can be placed when they have slots of their own that are free. -/
theorem place_isSome_iff {width : Nat} {table : List (Nat × Nat)} {first : Nat} {ts : List T} :
    (place width table first ts).isSome ↔
      Apart ts width ∧ ∀ t ∈ ts, table.lookup (slotAt width t) = none := by
  induction ts generalizing table first with
  | nil => simp [place, Apart]
  | cons t rest ih =>
    unfold place
    cases hlookup : table.lookup (slotAt width t) with
    | some index =>
      refine ⟨fun hsome => (nomatch hsome), fun ⟨_, hfree⟩ => ?_⟩
      have := hfree t (List.mem_cons_self ..)
      rw [hlookup] at this
      cases this
    | none =>
      simp only [ih, Apart, List.map_cons, List.nodup_cons, List.mem_cons, forall_eq_or_imp,
        hlookup, true_and]
      constructor
      · rintro ⟨hapart, hfree⟩
        -- The slot of the first type is not free for the others.
        have hne : ∀ t' ∈ rest, slotAt width t' ≠ slotAt width t := by
          intro t' ht' heq
          have := hfree t' ht'
          rw [heq, List.lookup_cons_self] at this
          cases this
        refine ⟨⟨fun hmem => ?_, hapart⟩, fun t' ht' => ?_⟩
        · obtain ⟨t', ht', heq⟩ := List.mem_map.mp hmem
          exact hne t' ht' heq
        · have := hfree t' ht'
          rwa [List.lookup_cons, beq_false_of_ne (hne t' ht')] at this
      · rintro ⟨⟨hnotin, hapart⟩, hfree⟩
        refine ⟨hapart, fun t' ht' => ?_⟩
        have hne : slotAt width t' ≠ slotAt width t := fun heq =>
          hnotin (heq ▸ List.mem_map_of_mem ht')
        rw [List.lookup_cons, beq_false_of_ne hne]
        exact hfree t' ht'

theorem place_nil_isSome_iff {width first : Nat} {ts : List T} :
    (place width [] first ts).isSome ↔ Apart ts width := by
  simp only [place_isSome_iff, List.lookup_nil, implies_true, and_true]

/-- Only the slots of the types get occupied. -/
theorem place_owned {width : Nat} {table table' : List (Nat × Nat)} {first : Nat} {ts : List T}
    (h : place width table first ts = some table') {slot index : Nat}
    (hslot : table'.lookup slot = some index) :
    table.lookup slot = some index ∨ ∃ t ∈ ts, slotAt width t = slot := by
  induction ts generalizing table first with
  | nil =>
    cases h
    exact .inl hslot
  | cons t rest ih =>
    unfold place at h
    split at h
    · cases h
    · by_cases heq : slot = slotAt width t
      · exact .inr ⟨t, List.mem_cons_self .., heq.symm⟩
      · rcases ih h with hold | ⟨t', ht', hslot'⟩
        · rw [List.lookup_cons, beq_false_of_ne heq] at hold
          exact .inl hold
        · exact .inr ⟨t', List.mem_cons_of_mem _ ht', hslot'⟩

theorem table_lt {width : Nat} (h : width ≤ maxBits) :
    (1 <<< width) * WordWidth.bits64.bytes < Memory.ampleLimit := by
  have hpow : 1 <<< width ≤ 1 <<< 30 := by
    simp only [Nat.one_shiftLeft]
    exact Nat.pow_le_pow_right (by decide) h
  simp only [WordWidth.bytes, Memory.ampleLimit]
  omega

/-- A table is refused by the memory alone. -/
theorem allocateTable_cases (m : Memory) {width : Nat} (h : width ≤ maxBits) :
    (∃ block, allocateTable m width = .ok block) ∨
      ¬ m.Serves .table ∧ ∃ bytes, allocateTable m width = .error (.allocationFailed bytes) := by
  by_cases hserves : m.Serves .table
  · exact .inl ⟨_, Buffer.reserve_served hserves (table_lt h)⟩
  · cases halloc : allocateTable m width with
    | ok block => exact .inl ⟨block, rfl⟩
    | error e =>
      unfold allocateTable at halloc
      rw [Buffer.reserve_eq (table_lt h)] at halloc
      exact .inr ⟨hserves, _, congrArg Except.error (Memory.allocate_error halloc)⟩

theorem allocateTable_isOk {m : Memory} (hserves : m.Serves .table) {width : Nat}
    (h : width ≤ maxBits) : ∃ block, allocateTable m width = .ok block :=
  (allocateTable_cases m h).resolve_right fun hrefused => hrefused.1 hserves

/-- The table is built at the least greater width at which the types have slots of their
own, if there is one and the memory has room for the tables up to there. -/
theorem widen_cases (ix : TypeRegistry T) (new : T) {steps width : Nat}
    (hbits : width + steps ≤ maxBits) :
    (¬ ix.memory.Serves .table ∧
        ∃ bytes, ix.widen new steps width = .error (.allocationFailed bytes)) ∨
      (∃ width' table, ix.widen new steps width = .ok (width', table) ∧ width < width' ∧
        width' ≤ width + steps ∧ place width' [] 1 (ix.types.toList ++ [new]) = some table ∧
          ∀ v, width < v → v < width' → ¬ Apart (ix.types.toList ++ [new]) v) ∨
      ix.widen new steps width = .error (ix.collision (width + steps) new) ∧
        ∀ v, width < v → v ≤ width + steps → ¬ Apart (ix.types.toList ++ [new]) v := by
  induction steps generalizing width with
  | zero =>
    refine .inr (.inr ⟨rfl, fun v hlt hle => ?_⟩)
    omega
  | succ steps ih =>
    rcases allocateTable_cases ix.memory (show width + 1 ≤ maxBits by omega) with
      ⟨block, halloc⟩ | ⟨hserves, bytes, halloc⟩
    case inr =>
      refine .inl ⟨hserves, bytes, ?_⟩
      unfold widen
      rw [halloc]
      rfl
    have hplaced : (place (width + 1) [] 1 (ix.types.toList ++ [new])).isSome ↔
        Apart (ix.types.toList ++ [new]) (width + 1) := place_nil_isSome_iff
    unfold widen
    simp only [halloc, bind, Except.bind]
    cases hplace : place (width + 1) [] 1 (ix.types.toList ++ [new]) with
    | some table =>
      refine .inr (.inl ⟨width + 1, table, rfl, by omega, by omega, hplace, ?_⟩)
      intro v hlt hless
      omega
    | none =>
      rw [hplace] at hplaced
      -- The next width is of no use.
      have hnext : ¬ Apart (ix.types.toList ++ [new]) (width + 1) := fun hapart => by
        cases hplaced.mpr hapart
      have hsteps : width + 1 + steps = width + (steps + 1) := by omega
      rw [← hsteps]
      rcases ih (show width + 1 + steps ≤ maxBits by omega) with
        hrefused | ⟨width', table, hwiden, hlt, hle, hplace', hleast⟩ | ⟨hwiden, hnone⟩
      · exact .inl hrefused
      · refine .inr (.inl ⟨width', table, hwiden, by omega, hle, hplace', fun v hv hless => ?_⟩)
        rcases Nat.eq_or_lt_of_le hv with rfl | hv
        · exact hnext
        · exact hleast v hv hless
      · refine .inr (.inr ⟨hwiden, fun v hv hle => ?_⟩)
        rcases Nat.eq_or_lt_of_le hv with rfl | hv
        · exact hnext
        · exact hnone v hv hle

/-! ### The invariant -/

variable [DecidableEq T]

/-- The width is the least one that keeps the registered types apart and is not below the
one the registry was made with; no slot is occupied without a reason. -/
structure Fitted (initial : Nat) (ix : TypeRegistry T) : Prop extends Wf ix where
  owned : ∀ slot index, ix.table.lookup slot = some index →
    ∃ t ∈ ix.types.toList, slotAt ix.width t = slot
  least : IsLeast {v | initial ≤ v ∧ Apart ix.types.toList v} ix.width

namespace Fitted

variable {initial : Nat} {ix : TypeRegistry T} (h : ix.Fitted initial)

include h

omit [DecidableEq T] in
/-- A slot is free when no type wants it. -/
theorem lookup_eq_none_iff {slot : Nat} :
    ix.table.lookup slot = none ↔ ∀ t ∈ ix.types.toList, slotAt ix.width t ≠ slot := by
  constructor
  · rintro hnone t ht rfl
    obtain ⟨i, hi⟩ := List.getElem?_of_mem ht
    rw [Array.getElem?_toList] at hi
    rw [h.placed i t hi] at hnone
    cases hnone
  · intro hfree
    cases hslot : ix.table.lookup slot with
    | none => rfl
    | some index =>
      obtain ⟨t, ht, heq⟩ := h.owned slot index hslot
      exact absurd heq (hfree t ht)

omit [DecidableEq T] in
/-- The widest table keeps the registered types apart as well. -/
theorem apart_maxWidth : Apart ix.types.toList ix.maxWidth := by
  have hmax : ix.maxWidth ≤ 30 := h.maxWidth_le
  exact h.least.1.2.wider h.toWf.width_le (by omega)

omit [DecidableEq T] h in
/-- The first registered type with the slot of the new one in the widest table is named. -/
theorem collision_eq {t : T}
    (hmeets : ∃ t' ∈ ix.types.toList, slotAt ix.maxWidth t' = slotAt ix.maxWidth t) :
    ∃ t' ∈ ix.types.toList, slotAt ix.maxWidth t' = slotAt ix.maxWidth t ∧
      ix.collision ix.maxWidth t =
        .classIndexCollision ix.maxWidth (ComponentType.name t') (ComponentType.name t) := by
  cases hfind : ix.types.toList.find? fun t' => slotAt ix.maxWidth t' == slotAt ix.maxWidth t with
  | none =>
    obtain ⟨t', ht', heq⟩ := hmeets
    have := List.find?_eq_none.mp hfind t' ht'
    simp [heq] at this
  | some t' =>
    refine ⟨t', List.mem_of_find?_eq_some hfind, by simpa using List.find?_some hfind, ?_⟩
    simp only [collision, hfind]

/-- A new type takes a free slot. -/
theorem push_free {t : T} (hnew : t ∉ ix.types.toList)
    (hfree : ix.table.lookup (slotAt ix.width t) = none) :
    (∀ t' ∈ ix.types.toList, slotAt ix.maxWidth t' ≠ slotAt ix.maxWidth t) ∧
      ∃ ix', ix.register t = (.ok (ix.size + 1), ix') ∧ ix'.Fitted initial ∧
        ix'.maxWidth = ix.maxWidth := by
  have hunknown : ix.index? t = none := by
    rw [Option.eq_none_iff_forall_ne_some]
    exact fun index hindex => hnew (mem_types_iff.mpr ⟨index, h.index?_eq_some_iff.mp hindex⟩)
  have hmax : ix.maxWidth ≤ 30 := h.maxWidth_le
  have hslots := h.lookup_eq_none_iff.mp hfree
  have hregister : ix.register t = (.ok (ix.size + 1),
      { ix with
        types := ix.types.push t
        table := (slotAt ix.width t, ix.size + 1) :: ix.table }) := by
    simp only [register, hunknown, hfree]
  refine ⟨fun t' ht' heq => hslots t' ht' (slotAt_congr h.toWf.width_le (by omega) heq), _,
    hregister, ⟨(register_ok h.toWf hregister).1, fun slot index hslot => ?_, ?_⟩, rfl⟩
  · rw [Array.toList_push]
    rw [List.lookup_cons] at hslot
    split at hslot
    · rename_i heq
      exact ⟨t, by simp, (beq_iff_eq.mp heq).symm⟩
    · obtain ⟨t', ht', heq⟩ := h.owned slot index hslot
      exact ⟨t', List.mem_append_left _ ht', heq⟩
  · rw [Array.toList_push]
    refine ⟨⟨h.least.1.1, apart_concat.mpr ⟨h.least.1.2, hslots⟩⟩, fun v hv => h.least.2 ?_⟩
    exact ⟨hv.1, (apart_concat.mp hv.2).1⟩

/-- A new type whose slot is occupied is put into a wider table, if there is one that has a slot
for it and memory for the table. -/
theorem push_occupied {t : T} (hnew : t ∉ ix.types.toList) {index : Nat}
    (hoccupied : ix.table.lookup (slotAt ix.width t) = some index) :
    (¬ ix.memory.Serves .table ∧
        ∃ bytes, ix.register t = (.error (.allocationFailed bytes), ix)) ∨
      (∃ t' ∈ ix.types.toList, slotAt ix.maxWidth t' = slotAt ix.maxWidth t) ∧
        ix.register t = (.error (ix.collision ix.maxWidth t), ix) ∨
      (∀ t' ∈ ix.types.toList, slotAt ix.maxWidth t' ≠ slotAt ix.maxWidth t) ∧
        ∃ ix', ix.register t = (.ok (ix.size + 1), ix') ∧ ix'.Fitted initial ∧
          ix'.maxWidth = ix.maxWidth := by
  have hunknown : ix.index? t = none := by
    rw [Option.eq_none_iff_forall_ne_some]
    exact fun index hindex => hnew (mem_types_iff.mpr ⟨index, h.index?_eq_some_iff.mp hindex⟩)
  have hmax : ix.maxWidth ≤ 30 := h.maxWidth_le
  have hle := h.toWf.width_le
  have hsteps : ix.width + (ix.maxWidth - ix.width) = ix.maxWidth := by omega
  -- The type that holds the slot is in the way at all widths up to the present one.
  obtain ⟨holder, hholder, hsame⟩ := h.owned _ _ hoccupied
  have hnarrow : ∀ v, v ≤ ix.width → ¬ Apart (ix.types.toList ++ [t]) v := by
    intro v hv hapart
    exact (apart_concat.mp hapart).2 holder hholder (slotAt_congr hv (by omega) hsame)
  have hbits : ix.width + (ix.maxWidth - ix.width) ≤ maxBits := by
    rw [hsteps]
    exact h.maxWidth_le
  rcases ix.widen_cases t hbits with ⟨hserves, bytes, hwiden⟩ |
    ⟨width', table, hwiden, hlt, hle', hplace, hleast⟩ | ⟨hwiden, hnone⟩
  · refine .inl ⟨hserves, bytes, ?_⟩
    simp only [register, hunknown, hoccupied, hwiden]
  · right
    right
    have hapart : Apart (ix.types.toList ++ [t]) width' := by
      refine place_nil_isSome_iff.mp (?_ : (place width' [] 1 _).isSome)
      rw [hplace]
      rfl
    have hregister : ix.register t = (.ok (ix.size + 1),
        { ix with types := ix.types.push t, width := width', table }) := by
      simp only [register, hunknown, hoccupied, hwiden]
    refine ⟨(apart_concat.mp (hapart.wider (by omega) (by omega))).2, _, hregister,
      ⟨(register_ok h.toWf hregister).1, fun slot index hslot => ?_, ?_⟩, rfl⟩
    · rw [Array.toList_push]
      exact (place_owned hplace hslot).resolve_left (Option.some_ne_none index ∘ Eq.symm)
    · rw [Array.toList_push]
      refine ⟨⟨Nat.le_trans h.least.1.1 (Nat.le_of_lt hlt), hapart⟩, fun v hv => ?_⟩
      refine Nat.le_of_not_lt fun hless => ?_
      rcases Nat.lt_or_ge ix.width v with hwide | hv'
      · exact hleast v hwide hless hv.2
      · exact hnarrow v hv' hv.2
  · right
    left
    rw [hsteps] at hwiden hnone
    have hwidest : ¬ Apart (ix.types.toList ++ [t]) ix.maxWidth := by
      rcases Nat.eq_or_lt_of_le hle with heq | hlt
      · exact hnarrow _ (Nat.le_of_eq heq.symm)
      · exact hnone _ hlt (Nat.le_refl _)
    refine ⟨Decidable.byContradiction fun hno => hwidest (apart_concat.mpr
      ⟨h.apart_maxWidth, fun t' ht' heq => hno ⟨t', ht', heq⟩⟩), ?_⟩
    simp only [register, hunknown, hoccupied, hwiden]

/-- A new type is refused when it meets a registered one in the widest table, or when the memory
refuses a table, and in no other case. -/
theorem register_new {t : T} (hnew : t ∉ ix.types.toList) :
    (¬ ix.memory.Serves .table ∧
        ∃ bytes, ix.register t = (.error (.allocationFailed bytes), ix)) ∨
      (∃ t' ∈ ix.types.toList, slotAt ix.maxWidth t' = slotAt ix.maxWidth t) ∧
        ix.register t = (.error (ix.collision ix.maxWidth t), ix) ∨
      (∀ t' ∈ ix.types.toList, slotAt ix.maxWidth t' ≠ slotAt ix.maxWidth t) ∧
        ∃ ix', ix.register t = (.ok (ix.size + 1), ix') ∧ ix'.Fitted initial ∧
          ix'.maxWidth = ix.maxWidth := by
  cases hslot : ix.table.lookup (slotAt ix.width t) with
  | none => exact .inr (.inr (h.push_free hnew hslot))
  | some index => exact h.push_occupied hnew hslot

/-- Every registration keeps the width right. -/
theorem register (t : T) :
    (ix.register t).2.Fitted initial ∧ (ix.register t).2.maxWidth = ix.maxWidth := by
  by_cases hold : t ∈ ix.types.toList
  · obtain ⟨index, ht⟩ := mem_types_iff.mp hold
    rw [register_known h.toWf ht]
    exact ⟨h, rfl⟩
  · rcases h.register_new hold with
      ⟨-, bytes, hregister⟩ | ⟨-, hregister⟩ | ⟨-, ix', hregister, h', hmax⟩
    · rw [hregister]
      exact ⟨h, rfl⟩
    · rw [hregister]
      exact ⟨h, rfl⟩
    · rw [hregister]
      exact ⟨h', hmax⟩

theorem registerAll (ts : List T) :
    (ix.registerAll ts).2.Fitted initial ∧ (ix.registerAll ts).2.maxWidth = ix.maxWidth := by
  induction ts generalizing ix with
  | nil => exact ⟨h, rfl⟩
  | cons t rest ih =>
    have hfirst := h.register t
    unfold TypeRegistry.registerAll
    cases hreg : ix.register t with
    | mk answer ix₁ =>
      rw [hreg] at hfirst
      cases answer with
      | error e => exact hfirst
      | ok index =>
        obtain ⟨hrest, hmax⟩ := ih hfirst.1
        simp only
        cases hall : ix₁.registerAll rest with
        | mk answers ix₂ =>
          rw [hall] at hrest hmax
          cases answers <;> exact ⟨hrest, hmax.trans hfirst.2⟩

theorem after (calls : List (Call T)) :
    (ix.after calls).Fitted initial ∧ (ix.after calls).maxWidth = ix.maxWidth := by
  induction calls generalizing ix with
  | nil => exact ⟨h, rfl⟩
  | cons call rest ih =>
    have hstep : (ix.perform call).Fitted initial ∧ (ix.perform call).maxWidth = ix.maxWidth := by
      rcases ix.perform_cases call with heq | ⟨-, m, heq⟩
      · rw [heq]
        exact h.registerAll call.types
      · rw [heq]
        exact ⟨⟨h.toWf.withMemory m, h.owned, h.least⟩, rfl⟩
    obtain ⟨hrest, hmax⟩ := ih hstep.1
    exact ⟨hrest, hmax.trans hstep.2⟩

end Fitted

omit [DecidableEq T] in
theorem create_fitted {width maxWidth : Nat} {ix : TypeRegistry T}
    (h : create width maxWidth = .ok ix) : ix.Fitted width ∧ ix.maxWidth = maxWidth := by
  have hwf := create_wf h
  unfold create at h
  split at h
  · cases h
  · cases halloc : allocateTable .ample width with
    | error e =>
      rw [halloc] at h
      cases h
    | ok block =>
      rw [halloc] at h
      cases h
      exact ⟨⟨hwf, fun slot index hslot => (nomatch hslot), ⟨Nat.le_refl _, List.nodup_nil⟩,
        fun v hv => hv.1⟩, rfl⟩

/-! ### Width and refusals -/

/-- Width and refusals of a registry are determined by the hashes of the registered types. -/
structure WidthExact (ix : TypeRegistry T) (initial maxWidth : Nat) (registered : List T) :
    Prop where
  limit : ix.maxWidth = maxWidth
  least : IsLeast {v | initial ≤ v ∧ Apart registered v} ix.width
  /-- Where there is memory for tables, a new type is refused when it has the top bits of a
  registered one, and only then. -/
  refused : ix.memory.Serves .table → ∀ t, t ∉ registered →
    ((∃ e ix', ix.register t = (.error e, ix')) ↔
      ∃ t' ∈ registered, slotAt maxWidth t' = slotAt maxWidth t)
  /-- The error names such a registered type first, unless it is one of memory, and nothing
  changes. -/
  refusal : ∀ t, t ∉ registered → ∀ e ix', ix.register t = (.error e, ix') → ix' = ix ∧
    ((∃ t' ∈ registered, slotAt maxWidth t' = slotAt maxWidth t ∧
        e = .classIndexCollision maxWidth (ComponentType.name t') (ComponentType.name t)) ∨
      ¬ ix.memory.Serves .table ∧ ∃ bytes, e = .allocationFailed bytes)

theorem Fitted.widthExact {initial : Nat} {ix : TypeRegistry T} (h : ix.Fitted initial) :
    ix.WidthExact initial ix.maxWidth ix.types.toList := by
  refine ⟨rfl, h.least, fun hserves t hnew => ?_, fun t hnew e ix' hregister => ?_⟩
  · rcases h.register_new hnew with
      ⟨hrefuses, -⟩ | ⟨hmeets, hregister⟩ | ⟨happart, ix', hregister, -⟩
    · exact absurd hserves hrefuses
    · exact ⟨fun _ => hmeets, fun _ => ⟨_, _, hregister⟩⟩
    · refine ⟨?_, fun ⟨t', ht', heq⟩ => absurd heq (happart t' ht')⟩
      rintro ⟨e, ix'', hrefused⟩
      rw [hregister] at hrefused
      cases hrefused
  · rcases h.register_new hnew with
      ⟨hrefuses, bytes, hstarved⟩ | ⟨hmeets, hrefused⟩ | ⟨-, ix'', haccepted, -⟩
    · rw [hstarved] at hregister
      cases hregister
      exact ⟨rfl, .inr ⟨hrefuses, bytes, rfl⟩⟩
    · rw [hrefused] at hregister
      cases hregister
      exact ⟨rfl, .inl (collision_eq hmeets)⟩
    · rw [haccepted] at hregister
      cases hregister

/-- However types are registered, the width of the table is the least at which the accepted
types have slots of their own, a new type is refused only for sharing its slot in the widest
table or for want of memory, and the order in which types were accepted does not matter. -/
theorem create_width_exact {width maxWidth : Nat} {ix : TypeRegistry T}
    (hcreate : create width maxWidth = .ok ix) (calls : List (Call T)) :
    (ix.after calls).WidthExact width maxWidth (ix.registered calls) ∧
      ∀ (maxWidth' : Nat) (ix' : TypeRegistry T) (calls' : List (Call T)),
        create width maxWidth' = .ok ix' → (ix'.registered calls').Perm (ix.registered calls) →
          (ix'.after calls').width = (ix.after calls).width := by
  have hexact : ∀ (maxWidth : Nat) (ix : TypeRegistry T) (calls : List (Call T)),
      create width maxWidth = .ok ix →
        (ix.after calls).WidthExact width maxWidth (ix.registered calls) := by
    intro maxWidth ix calls hcreate
    obtain ⟨hfitted, hmax⟩ := create_fitted hcreate
    obtain ⟨hafter, hmax'⟩ := hfitted.after calls
    have htypes : (ix.after calls).types.toList = ix.registered calls :=
      ((create_records hcreate).after calls).types
    rw [← htypes, ← hmax, ← hmax']
    exact hafter.widthExact
  refine ⟨hexact maxWidth ix calls hcreate, fun maxWidth' ix' calls' hcreate' hperm => ?_⟩
  -- Both widths are the least of the same set.
  have hleast := (hexact maxWidth ix calls hcreate).least
  have hleast' := (hexact maxWidth' ix' calls' hcreate').least
  refine hleast'.unique ?_
  refine ⟨⟨hleast.1.1, hleast.1.2.perm hperm⟩, fun v hv => hleast.2 ⟨hv.1, hv.2.perm hperm.symm⟩⟩

theorem create_width_exact_crowded : ∃ ix : TypeRegistry Crowd, create 1 2 = .ok ix ∧
    (ix.after crowded).WidthExact 1 2 [.first, .near] := by
  have hcreate : create 1 2 = .ok (⟨#[], 1, 2, [], .ample⟩ : TypeRegistry Crowd) := rfl
  have hregistered : registered ⟨#[], 1, 2, [], .ample⟩ crowded = [.first, .near] := by
    decide +kernel
  have hexact := (create_width_exact hcreate crowded).1
  rw [hregistered] at hexact
  exact ⟨_, hcreate, hexact⟩

end ArchetypeStore.TypeRegistry

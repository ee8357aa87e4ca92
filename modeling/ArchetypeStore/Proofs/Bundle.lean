import ArchetypeStore.ComponentType

/-! # Bundles as finite maps

  A bundle that lists each type once is a map from types to values. What is looked up in it
  does not depend on its order. The lemmas say what a lookup finds after the changes that
  an operation makes to the components of an entity.
-/

namespace ArchetypeStore.Bundle

variable {T V : Type}

/-! ### Columns side by side -/

theorem types_zip {ts : List T} {vs : List V} (h : vs.length = ts.length) :
    types (ts.zip vs) = ts := List.map_fst_zip (Nat.le_of_eq h.symm)

theorem values_zip {ts : List T} {vs : List V} (h : vs.length = ts.length) :
    values (ts.zip vs) = vs := List.map_snd_zip (Nat.le_of_eq h)

/-- One more component behind the columns. -/
theorem types_zip_append {ts : List T} {vs : List V} (h : vs.length = ts.length) (t : T)
    (v : V) : types (ts.zip vs ++ [(t, v)]) = ts ++ [t] := by
  have hzip := types_zip h
  unfold types at hzip ⊢
  rw [List.map_append, hzip]
  rfl

theorem values_perm {b b' : Bundle T V} (h : b.Perm b') : (values b).Perm (values b') :=
  List.Perm.map _ h

theorem types_perm {b b' : Bundle T V} (h : b.Perm b') : (types b).Perm (types b') :=
  List.Perm.map _ h

variable [DecidableEq T]

/-! ### Lookup -/

theorem lookup_eq_none_iff {b : Bundle T V} {t : T} : b.lookup t = none ↔ t ∉ types b := by
  rw [List.lookup_eq_none_iff]
  simp only [types, List.mem_map, not_exists, not_and]
  constructor
  · rintro h entry hentry rfl
    simpa using h entry hentry
  · intro h entry hentry
    have := h entry hentry
    simpa using Ne.symm this

theorem lookup_eq_some_iff {b : Bundle T V} (h : (types b).Nodup) {t : T} {v : V} :
    b.lookup t = some v ↔ (t, v) ∈ b := by
  induction b with
  | nil => simp
  | cons entry rest ih =>
    obtain ⟨t', v'⟩ := entry
    obtain ⟨hnew, hrest⟩ := List.nodup_cons.mp h
    rw [List.lookup_cons, List.mem_cons]
    -- A type is listed once, so it has no other value further on.
    by_cases heq : t = t'
    · subst heq
      have habsent : (t, v) ∉ rest := fun hmem => hnew (List.mem_map.mpr ⟨_, hmem, rfl⟩)
      simp [habsent, eq_comm]
    · have hfalse : (t == t') = false := beq_false_of_ne heq
      rw [hfalse, ih hrest]
      simp [heq]

/-- The order of a bundle does not matter. -/
theorem lookup_of_perm {b b' : Bundle T V} (h : (types b).Nodup) (hperm : b.Perm b') (t : T) :
    b.lookup t = b'.lookup t := by
  have h' : (types b').Nodup := (types_perm hperm).nodup h
  apply Option.ext
  intro v
  rw [lookup_eq_some_iff h, lookup_eq_some_iff h', hperm.mem_iff]

theorem lookup_zip {ts : List T} (hnodup : ts.Nodup) (vs : List V) {i : Nat} {t : T}
    (ht : ts[i]? = some t) : (ts.zip vs).lookup t = vs[i]? := by
  induction ts generalizing i vs with
  | nil => cases ht
  | cons t' ts ih =>
    obtain ⟨hnew, hrest⟩ := List.nodup_cons.mp hnodup
    cases vs with
    | nil => simp
    | cons v vs =>
      rw [List.zip_cons_cons, List.lookup_cons]
      cases i with
      | zero =>
        cases ht
        simp
      | succ i =>
        rw [List.getElem?_cons_succ] at ht
        -- The type of a later column is not that of the first.
        have hne : t ≠ t' := by
          rintro rfl
          exact hnew (List.mem_of_getElem? ht)
        rw [beq_false_of_ne hne, List.getElem?_cons_succ]
        exact ih hrest vs ht

/-! ### Changes -/

/-- One value is replaced. -/
theorem lookup_zip_set {ts : List T} (hnodup : ts.Nodup) {vs : List V} {i : Nat} {t : T}
    (ht : ts[i]? = some t) (hi : i < vs.length) (v : V) (t' : T) :
    (ts.zip (vs.set i v)).lookup t' = if t' = t then some v else (ts.zip vs).lookup t' := by
  by_cases hmem : t' ∈ ts
  · obtain ⟨j, hj⟩ := List.getElem?_of_mem hmem
    rw [lookup_zip hnodup _ hj, lookup_zip hnodup _ hj]
    by_cases heq : t' = t
    · subst heq
      -- Types are distinct, so the column is the one that was set.
      have hij : i = j := by
        have hlt := (List.getElem?_eq_some_iff.mp ht).1
        exact (List.getElem?_inj hlt hnodup).mp (ht.trans hj.symm)
      subst hij
      rw [if_pos rfl, List.getElem?_set_self hi]
    · rw [if_neg heq, List.getElem?_set_ne]
      rintro rfl
      exact heq (Option.some.inj (hj.symm.trans ht))
  · have hnone : ∀ vs' : List V, (ts.zip vs').lookup t' = none := by
      intro vs'
      rw [lookup_eq_none_iff, types]
      intro hin
      obtain ⟨entry, hentry, rfl⟩ := List.mem_map.mp hin
      exact hmem (List.of_mem_zip hentry).1
    rw [hnone, hnone, if_neg]
    rintro rfl
    exact hmem (List.mem_of_getElem? ht)

/-- One component is added. -/
theorem lookup_append_new {b : Bundle T V} {t : T} (hnew : t ∉ types b) (v : V) (t' : T) :
    (b ++ [(t, v)]).lookup t' = if t' = t then some v else b.lookup t' := by
  rw [List.lookup_append, List.lookup_cons, List.lookup_nil]
  by_cases heq : t' = t
  · subst heq
    rw [lookup_eq_none_iff.mpr hnew]
    simp
  · rw [beq_false_of_ne heq, if_neg heq]
    exact Option.or_none

/-- One component is taken out. -/
theorem lookup_eraseP {b : Bundle T V} (h : (types b).Nodup) (t t' : T) :
    (b.eraseP (·.1 == t)).lookup t' = if t' = t then none else b.lookup t' := by
  induction b with
  | nil => simp
  | cons entry rest ih =>
    obtain ⟨t₁, v₁⟩ := entry
    obtain ⟨hnew, hrest⟩ := List.nodup_cons.mp h
    rw [List.eraseP_cons, List.lookup_cons]
    by_cases heq : t₁ = t
    · subst heq
      simp only [beq_self_eq_true, cond_true]
      by_cases heq' : t' = t₁
      · subst heq'
        rw [if_pos rfl]
        exact lookup_eq_none_iff.mpr hnew
      · rw [if_neg heq', beq_false_of_ne heq']
    · rw [beq_false_of_ne heq, cond_false, List.lookup_cons, ih hrest]
      by_cases heq' : t' = t₁
      · subst heq'
        simp [heq]
      · rw [beq_false_of_ne heq']

theorem perm_cons_eraseP {b : Bundle T V} {t : T} {v : V} (h : b.lookup t = some v) :
    b.Perm ((t, v) :: b.eraseP (·.1 == t)) := by
  induction b with
  | nil => cases h
  | cons entry rest ih =>
    obtain ⟨t₁, v₁⟩ := entry
    rw [List.lookup_cons] at h
    rw [List.eraseP_cons]
    by_cases heq : t = t₁
    · subst heq
      simp only [beq_self_eq_true] at h
      cases h
      simp
    · rw [beq_false_of_ne heq] at h
      have hfalse : (t₁ == t) = false := beq_false_of_ne (Ne.symm heq)
      rw [hfalse, cond_false]
      exact ((ih h).cons _).trans (List.Perm.swap ..)

theorem types_eraseP {b : Bundle T V} (h : (types b).Nodup) (t : T) :
    types (b.eraseP (·.1 == t)) = (types b).filter (· ≠ t) := by
  induction b with
  | nil => rfl
  | cons entry rest ih =>
    obtain ⟨t₁, v₁⟩ := entry
    obtain ⟨hnew, hrest⟩ := List.nodup_cons.mp h
    rw [List.eraseP_cons]
    by_cases heq : t₁ = t
    · subst heq
      simp only [beq_self_eq_true, cond_true]
      have hkeep : (types rest).filter (· ≠ t₁) = types rest := by
        rw [List.filter_eq_self]
        intro t' ht'
        exact decide_eq_true (fun heq => hnew (heq ▸ ht'))
      simp only [types, List.map_cons, ne_eq, not_true_eq_false, decide_false,
        Bool.false_eq_true, not_false_eq_true, List.filter_cons_of_neg]
      exact hkeep.symm
    · rw [beq_false_of_ne heq, cond_false]
      have hkeep : types ((t₁, v₁) :: rest) = t₁ :: types rest := rfl
      have hpos : decide (t₁ ≠ t) = true := decide_eq_true heq
      rw [hkeep, List.filter_cons, if_pos hpos, ← ih hrest]
      rfl

/-! ### Maps that agree -/

/-- The bundle without one type. -/
def without (b : Bundle T V) (t : T) : Bundle T V := b.eraseP (·.1 == t)

/-- The bundle with one type set to a value. -/
def put (b : Bundle T V) (t : T) (value : V) : Bundle T V := b.without t ++ [(t, value)]

/-- Bundles in which every lookup finds the same differ in their order only. -/
theorem perm_of_lookup {b b' : Bundle T V} (h : (types b).Nodup) (h' : (types b').Nodup)
    (hlookup : ∀ t, b.lookup t = b'.lookup t) : b.Perm b' := by
  -- Distinct types make distinct entries, so the entries decide.
  have hnodup : ∀ {c : Bundle T V}, (types c).Nodup → c.Nodup := by
    intro c hc
    rw [types, List.nodup_iff_pairwise_ne, List.pairwise_map] at hc
    exact hc.imp fun hne heq => hne (congrArg Prod.fst heq)
  rw [List.perm_ext_iff_of_nodup (hnodup h) (hnodup h')]
  rintro ⟨t, v⟩
  rw [← lookup_eq_some_iff h, ← lookup_eq_some_iff h', hlookup]

theorem types_without_nodup {b : Bundle T V} (h : (types b).Nodup) (t : T) :
    (types (b.without t)).Nodup := by
  rw [without, types_eraseP h]
  exact h.sublist List.filter_sublist

theorem without_perm {b b' : Bundle T V} (h : (types b).Nodup) (hperm : b.Perm b') (t : T) :
    (b.without t).Perm (b'.without t) := by
  have h' : (types b').Nodup := (types_perm hperm).nodup h
  refine perm_of_lookup (types_without_nodup h t) (types_without_nodup h' t) fun t' => ?_
  rw [without, without, lookup_eraseP h, lookup_eraseP h', lookup_of_perm h hperm]

theorem lookup_put {b : Bundle T V} (h : (types b).Nodup) (t : T) (value : V) (t' : T) :
    (b.put t value).lookup t' = if t' = t then some value else b.lookup t' := by
  have hnew : t ∉ types (b.without t) := by
    rw [without, types_eraseP h, List.mem_filter]
    simp
  rw [put, lookup_append_new hnew, without, lookup_eraseP h]
  split <;> rfl

theorem types_put_nodup {b : Bundle T V} (h : (types b).Nodup) (t : T) (value : V) :
    (types (b.put t value)).Nodup := by
  -- The type was taken out before it is added at the end.
  have hsplit : types (b.put t value) = types (b.without t) ++ [t] := by
    unfold put types
    rw [List.map_append]
    rfl
  rw [hsplit, List.nodup_append]
  refine ⟨types_without_nodup h t, List.pairwise_singleton .., ?_⟩
  rintro t' ht' t'' ht'' rfl
  rw [List.mem_singleton] at ht''
  subst ht''
  rw [without, types_eraseP h, List.mem_filter] at ht'
  simp at ht'

theorem put_of_absent {b : Bundle T V} {t : T} (h : t ∉ types b) (value : V) :
    b.put t value = b ++ [(t, value)] := by
  -- There is nothing to take out.
  have hsame : b.without t = b := by
    refine List.eraseP_of_forall_not fun entry hentry heq => h ?_
    rw [← beq_iff_eq.mp heq]
    exact List.mem_map.mpr ⟨entry, hentry, rfl⟩
  rw [put, hsame]

/-- A value that is replaced in its column is put there. -/
theorem zip_set_perm {ts : List T} (hnodup : ts.Nodup) {vs : List V}
    (hlength : vs.length = ts.length) {i : Nat} {t : T} (ht : ts[i]? = some t) (v : V) :
    (ts.zip (vs.set i v)).Perm (put (ts.zip vs) t v) := by
  have hi : i < vs.length := by
    rw [hlength]
    exact (List.getElem?_eq_some_iff.mp ht).1
  have htypes : types (ts.zip vs) = ts := types_zip hlength
  have htypes' : types (ts.zip (vs.set i v)) = ts :=
    types_zip (by rw [List.length_set, hlength])
  have hnodup' : (types (ts.zip vs)).Nodup := htypes.symm ▸ hnodup
  refine perm_of_lookup (htypes'.symm ▸ hnodup) (types_put_nodup hnodup' t v) fun t' => ?_
  rw [lookup_zip_set hnodup ht hi, lookup_put hnodup']

theorem put_perm {b b' : Bundle T V} (h : (types b).Nodup) (hperm : b.Perm b') (t : T)
    (value : V) : (b.put t value).Perm (b'.put t value) :=
  (without_perm h hperm t).append_right _

end ArchetypeStore.Bundle

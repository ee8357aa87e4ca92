import ArchetypeStore.Proofs.DenseMap

/-! # Updates of a dense map

  Every update leaves a well-formed map, in which the value of one key is another and those of
  the other keys are as they were. A removal keeps positions and keys inverse to each other:
  the last entry moves to the place of the one that goes, and the position of its key with it.
-/

namespace ArchetypeStore.DenseMap

variable {V : Type} {m : DenseMap V}

/-! ### Looking up -/

theorem get?_of_position {key pos : Nat} (hpos : m.position? key = some pos) :
    m.get? key = m.values[pos]? := by
  rw [get?_eq, hpos]
  rfl

theorem get?_of_absent {key : Nat} (hpos : m.position? key = none) : m.get? key = none := by
  rw [get?_eq, hpos]
  rfl

theorem contains_of_position {key pos : Nat} (hpos : m.position? key = some pos) :
    m.contains key = true := by
  rw [contains, hpos]
  rfl

theorem contains_of_absent {key : Nat} (hpos : m.position? key = none) :
    m.contains key = false := by
  rw [contains, hpos]
  rfl

theorem Wf.isSome_get? (h : m.Wf) (key : Nat) : (m.get? key).isSome = m.contains key := by
  cases hpos : m.position? key with
  | none =>
    rw [get?_of_absent hpos, contains_of_absent hpos]
    rfl
  | some pos =>
    have hlt := h.lt_of_position hpos
    rw [h.size_eq] at hlt
    rw [get?_of_position hpos, contains_of_position hpos, Array.getElem?_eq_getElem hlt]
    rfl

/-! ### Changing one value -/

/-- The map with other values. -/
def withValues (m : DenseMap V) (values : Array V) : DenseMap V := { m with values := values }

theorem withValues_wf (h : m.Wf) {values : Array V} (hsize : values.size = m.values.size) :
    (m.withValues values).Wf :=
  ⟨h.size_eq.trans hsize.symm, h.size_lt, h.position_iff⟩

/-- A change of the value at one position is a change of the value of its key. -/
theorem Wf.get?_withValues (h : m.Wf) {key pos : Nat} (hpos : m.position? key = some pos)
    {values : Array V} (hother : ∀ i, i ≠ pos → values[i]? = m.values[i]?) (k : Nat) :
    (m.withValues values).get? k = if k = key then values[pos]? else m.get? k := by
  by_cases hk : k = key
  · subst hk
    rw [if_pos rfl]
    exact get?_of_position (m := m.withValues values) hpos
  · rw [if_neg hk]
    cases hpos' : m.position? k with
    | none => rw [get?_of_absent hpos', get?_of_absent (m := m.withValues values) hpos']
    | some pos' =>
      rw [get?_of_position hpos', get?_of_position (m := m.withValues values) hpos']
      -- Another key has another position.
      apply hother
      intro heq
      exact hk (h.position_inj hpos' (heq ▸ hpos))

/-! ### Insertion -/

theorem insert_of_position {key pos : Nat} (hpos : m.position? key = some pos) (value : V) :
    m.insert key value = (m.get? key, m.withValues (m.values.setIfInBounds pos value)) := by
  rw [get?_of_position hpos]
  simp only [insert, hpos, withValues]

/-- What an insertion does. -/
structure Inserted (m : DenseMap V) (key : Nat) (value : V) (outcome : Option V × DenseMap V) :
    Prop where
  wf : outcome.2.Wf
  answer : outcome.1 = m.get? key
  get?_eq : ∀ k, outcome.2.get? k = if k = key then some value else m.get? k
  /-- A new key goes to the end. -/
  keys_eq : outcome.2.keys.toList =
    if m.contains key then m.keys.toList else m.keys.toList ++ [key]

theorem Wf.inserted (h : m.Wf) {key : Nat} (hroom : m.contains key = false → m.size + 1 < UInt32.size)
    (value : V) : Inserted m key value (m.insert key value) := by
  cases hpos : m.position? key with
  | some pos =>
    have hlt := h.lt_of_position hpos
    rw [h.size_eq] at hlt
    rw [insert_of_position hpos]
    refine ⟨withValues_wf h (by simp), rfl, ?_, ?_⟩
    · intro k
      rw [h.get?_withValues hpos, Array.getElem?_setIfInBounds_self_of_lt hlt]
      intro i hi
      exact Array.getElem?_setIfInBounds_ne (Ne.symm hi)
    · rw [if_pos (contains_of_position hpos)]
      rfl
  | none =>
    have hcontains := contains_of_absent hpos
    obtain ⟨hanswer, hwf, hkeys, hlist⟩ := insert_of_new h hcontains (hroom hcontains) value
    refine ⟨hwf, hanswer.trans (get?_of_absent hpos).symm, ?_, ?_⟩
    · intro k
      -- The entries are the old ones and the new one.
      apply Option.ext
      intro v
      rw [hwf.get?_eq_some_iff, hlist, List.mem_append, List.mem_singleton, Prod.mk.injEq,
        ← h.get?_eq_some_iff]
      by_cases hk : k = key
      · subst hk
        simp [get?_of_absent hpos, eq_comm]
      · simp [hk]
    · rw [hkeys, hcontains, Array.toList_push]
      rfl

/-! ### Changes in place -/

/-- What a change in place does. -/
structure Modified (m : DenseMap V) (key : Nat) (f : V → V) (outcome : Bool × DenseMap V) :
    Prop where
  wf : outcome.2.Wf
  answer : outcome.1 = m.contains key
  get?_eq : ∀ k, outcome.2.get? k = if k = key then (m.get? k).map f else m.get? k
  keys_eq : outcome.2.keys = m.keys

theorem Wf.modified (h : m.Wf) (key : Nat) (f : V → V) : Modified m key f (m.modify key f) := by
  cases hpos : m.position? key with
  | some pos =>
    have hmodify : m.modify key f = (true, m.withValues (m.values.modify pos f)) := by
      simp only [modify, hpos, withValues]
    rw [hmodify]
    refine ⟨withValues_wf h (by simp), (contains_of_position hpos).symm, ?_, rfl⟩
    intro k
    rw [h.get?_withValues hpos]
    · by_cases hk : k = key
      · subst hk
        rw [if_pos rfl, if_pos rfl, get?_of_position hpos, Array.getElem?_modify, if_pos rfl]
      · rw [if_neg hk, if_neg hk]
    · intro i hi
      rw [Array.getElem?_modify, if_neg (Ne.symm hi)]
  | none =>
    have hmodify : m.modify key f = (false, m) := by simp only [modify, hpos]
    rw [hmodify]
    refine ⟨h, (contains_of_absent hpos).symm, ?_, rfl⟩
    intro k
    by_cases hk : k = key
    · subst hk
      simp [get?_of_absent hpos]
    · rw [if_neg hk]

/-! ### Removal from an array -/

/-- Where the entry at `q` stands after a removal at `pos`: the last one has moved there. -/
def place (size pos q : Nat) : Nat := if q + 1 = size then pos else q

section

variable {α : Type} {entries : Array α} {pos : Nat}

theorem size_swapRemove (entries : Array α) (pos : Nat) :
    (swapRemove entries pos).size = entries.size - 1 := by
  unfold swapRemove
  split
  · simp
  · rename_i hback
    simp [Array.back?_eq_none_iff.mp hback]

theorem getElem?_swapRemove (hpos : pos < entries.size) (p : Nat) :
    (swapRemove entries pos)[p]? =
      if p + 1 < entries.size then entries[if p = pos then entries.size - 1 else p]? else none := by
  have hlast : entries.size - 1 < entries.size := by omega
  have hback : entries.back? = some entries[entries.size - 1] := by
    rw [Array.back?_eq_getElem?, Array.getElem?_eq_getElem hlast]
  -- The last entry is written at `pos` before the end is dropped.
  simp only [swapRemove, hback, Array.getElem?_pop, Array.size_setIfInBounds]
  by_cases hp : p + 1 < entries.size
  · rw [if_pos (by omega), if_pos hp]
    by_cases heq : p = pos
    · subst heq
      rw [if_pos rfl, Array.getElem?_setIfInBounds_self_of_lt hpos, Array.getElem?_eq_getElem hlast]
    · rw [if_neg heq, Array.getElem?_setIfInBounds_ne (Ne.symm heq)]
  · rw [if_neg (by omega), if_neg hp]

/-- Every other entry is there, at its place. -/
theorem getElem?_swapRemove_place (hpos : pos < entries.size) {q : Nat} (hq : q < entries.size)
    (hne : q ≠ pos) : (swapRemove entries pos)[place entries.size pos q]? = entries[q]? := by
  rw [getElem?_swapRemove hpos]
  unfold place
  by_cases hlast : q + 1 = entries.size
  · have hq_eq : q = entries.size - 1 := by omega
    rw [if_pos hlast, if_pos rfl, if_pos (by omega), hq_eq]
  · rw [if_neg hlast, if_neg hne, if_pos (by omega)]

theorem getElem?_swapRemove_eq_some (hpos : pos < entries.size) {p : Nat} {a : α} :
    (swapRemove entries pos)[p]? = some a ↔
      ∃ q, q ≠ pos ∧ entries[q]? = some a ∧ place entries.size pos q = p := by
  constructor
  · intro hp
    rw [getElem?_swapRemove hpos] at hp
    split at hp
    · refine ⟨_, ?_, hp, ?_⟩
      · split <;> omega
      · unfold place
        split <;> split <;> omega
    · cases hp
  · rintro ⟨q, hne, hq, rfl⟩
    have hlt := (Array.getElem?_eq_some_iff.mp hq).1
    rw [getElem?_swapRemove_place hpos hlt hne, hq]

end

/-! ### Removal from a map -/

/-- The positions without the one of `key`. -/
def positionsWithout (m : DenseMap V) (key pos : Nat) : Array UInt32 :=
  match (swapRemove m.keys pos)[pos]? with
  | some moved => (m.positions.setIfInBounds key absent).setIfInBounds moved (UInt32.ofNat pos)
  | none => m.positions.setIfInBounds key absent

/-- The map without the entry at `pos`. -/
def without (m : DenseMap V) (key pos : Nat) : DenseMap V :=
  ⟨positionsWithout m key pos, swapRemove m.keys pos, swapRemove m.values pos⟩

/-- The keys without one of them: the last one stands where it stood. -/
def fillGap (keys : List Nat) (key : Nat) : List Nat :=
  keys.dropLast.map fun k => if k = key then keys.getLastD key else k

theorem Wf.exists_last (h : m.Wf) {key pos : Nat} (hpos : m.position? key = some pos) :
    ∃ last, m.keys[m.keys.size - 1]? = some last := by
  have := h.lt_of_position hpos
  exact ⟨_, Array.getElem?_eq_getElem (by omega)⟩

theorem bind_unpack_setIfInBounds_absent (m : DenseMap V) (key k : Nat) :
    (m.positions.setIfInBounds key absent)[k]?.bind unpack =
      if k = key then none else m.position? k := by
  by_cases hk : k = key
  · subst hk
    rw [if_pos rfl, Array.getElem?_setIfInBounds_self]
    split <;> rfl
  · rw [if_neg hk, Array.getElem?_setIfInBounds_ne (Ne.symm hk)]
    rfl

section

variable {key pos : Nat} (hpos : m.position? key = some pos)

include hpos

theorem erase_of_position : m.erase key = (m.get? key, m.without key pos) := by
  rw [get?_of_position hpos]
  simp only [erase, hpos]
  rfl

variable (h : m.Wf)

include h

/-- No positions change but those of the key and of the last one. -/
theorem position?_without_of_last {last : Nat} (hlast : m.keys[m.keys.size - 1]? = some last)
    (k : Nat) : (m.without key pos).position? k =
      if k = key then none else if k = last then some pos else m.position? k := by
  have hlt := h.lt_of_position hpos
  have hkey := (h.position_iff key pos).mp hpos
  show (positionsWithout m key pos)[k]?.bind unpack = _
  unfold positionsWithout
  rw [getElem?_swapRemove hlt, if_pos rfl, hlast]
  by_cases hend : pos + 1 < m.keys.size
  · -- The last key moves.
    have hne : last ≠ key := by
      intro heq
      have := h.index_inj hkey (heq ▸ hlast)
      omega
    have hroom : last < m.positions.size := h.key_lt (List.mem_of_getElem? (by simpa using hlast))
    have hword : unpack (UInt32.ofNat pos) = some pos := unpack_ofNat (by have := h.size_lt; omega)
    rw [if_pos hend]
    by_cases hk : k = last
    · subst hk
      simp [hne, hroom, hword]
    · rw [Array.getElem?_setIfInBounds_ne (Ne.symm hk), bind_unpack_setIfInBounds_absent, if_neg hk]
  · -- The key is the last one itself.
    have heq : last = key := by
      rw [show m.keys.size - 1 = pos by omega, hkey] at hlast
      exact (Option.some.inj hlast).symm
    rw [if_neg hend, heq, bind_unpack_setIfInBounds_absent]
    by_cases hk : k = key
    · rw [if_pos hk, if_pos hk]
    · rw [if_neg hk, if_neg hk, if_neg hk]

/-- The positions name the places of the entries that stay. -/
theorem position?_without (k : Nat) : (m.without key pos).position? k =
    ((m.position? k).filter (· ≠ pos)).map (place m.keys.size pos) := by
  have hlt := h.lt_of_position hpos
  obtain ⟨last, hlast⟩ := h.exists_last hpos
  rw [position?_without_of_last hpos h hlast]
  by_cases hk : k = key
  · rw [if_pos hk, hk, hpos]
    simp [Option.filter_some]
  · rw [if_neg hk]
    by_cases hk' : k = last
    · -- The last one has moved.
      have hlastpos := (h.position_iff last _).mpr hlast
      have hne : m.keys.size - 1 ≠ pos := by
        intro heq
        rw [heq, ← hk'] at hlastpos
        exact hk (h.position_inj hlastpos hpos)
      have hplace : place m.keys.size pos (m.keys.size - 1) = pos := if_pos (by omega)
      rw [if_pos hk', hk', hlastpos]
      simp [Option.filter_some, hne, hplace]
    · rw [if_neg hk']
      cases hq : m.position? k with
      | none => rfl
      | some q =>
        have hne : q ≠ pos := by
          intro heq
          exact hk (h.position_inj hq (heq ▸ hpos))
        have hplace : place m.keys.size pos q = q := by
          apply if_neg
          intro heq
          have hkq := (h.position_iff k q).mp hq
          rw [show q = m.keys.size - 1 by omega, hlast] at hkq
          exact hk' (Option.some.inj hkq).symm
        simp [Option.filter_some, hne, hplace]

theorem without_wf : (m.without key pos).Wf := by
  have hlt := h.lt_of_position hpos
  refine ⟨?_, ?_, ?_⟩
  · show (swapRemove m.keys pos).size = (swapRemove m.values pos).size
    rw [size_swapRemove, size_swapRemove, h.size_eq]
  · show (swapRemove m.keys pos).size < UInt32.size
    rw [size_swapRemove]
    exact Nat.lt_of_le_of_lt (Nat.sub_le ..) h.size_lt
  · intro k p
    -- Both sides ask for an old position of `k` that is not `pos` and whose place is `p`.
    rw [position?_without hpos h]
    show _ ↔ (swapRemove m.keys pos)[p]? = some k
    rw [getElem?_swapRemove_eq_some hlt]
    simp only [Option.map_eq_some_iff, Option.filter_eq_some_iff, h.position_iff, decide_eq_true_eq]
    constructor
    · rintro ⟨q, ⟨hq, hne⟩, hp⟩
      exact ⟨q, hne, hq, hp⟩
    · rintro ⟨q, hne, hq, hp⟩
      exact ⟨q, ⟨hq, hne⟩, hp⟩

theorem get?_without (k : Nat) :
    (m.without key pos).get? k = if k = key then none else m.get? k := by
  have hlt := h.lt_of_position hpos
  cases hk : m.position? k with
  | none =>
    have hnone : (m.without key pos).position? k = none := by
      rw [position?_without hpos h, hk]
      rfl
    rw [get?_of_absent hnone, get?_of_absent hk, ite_self]
  | some q =>
    by_cases hq : q = pos
    · subst hq
      have hnone : (m.without key q).position? k = none := by
        rw [position?_without hpos h, hk]
        simp
      rw [get?_of_absent hnone, if_pos (h.position_inj hk hpos)]
    · have hsome : (m.without key pos).position? k = some (place m.keys.size pos q) := by
        rw [position?_without hpos h, hk]
        simp [hq]
      have hne : k ≠ key := by
        intro heq
        rw [heq, hpos] at hk
        exact hq (Option.some.inj hk).symm
      have hlt' := h.lt_of_position hk
      rw [get?_of_position hsome, get?_of_position hk, if_neg hne]
      -- The value has moved to the same place as the key.
      show (swapRemove m.values pos)[_]? = _
      rw [h.size_eq] at hlt hlt' ⊢
      exact getElem?_swapRemove_place hlt hlt' hq

theorem keys_without : (m.without key pos).keys.toList = fillGap m.keys.toList key := by
  have hlt := h.lt_of_position hpos
  have hkey := (h.position_iff key pos).mp hpos
  obtain ⟨last, hlast⟩ := h.exists_last hpos
  have hgetLast : m.keys.toList.getLastD key = last := by
    rw [List.getLastD_eq_getLast?, List.getLast?_eq_getElem?, Array.length_toList,
      Array.getElem?_toList, hlast]
    rfl
  apply List.ext_getElem?
  intro p
  show (swapRemove m.keys pos).toList[p]? = _
  rw [Array.getElem?_toList, getElem?_swapRemove hlt, fillGap, hgetLast, List.getElem?_map,
    List.getElem?_dropLast, Array.length_toList, Array.getElem?_toList]
  by_cases hp : p + 1 < m.keys.size
  · have hp' : p < m.keys.size - 1 := by omega
    rw [if_pos hp, if_pos hp']
    by_cases heq : p = pos
    · subst heq
      rw [if_pos rfl, hlast, hkey]
      simp
    · -- Keys are distinct, so elsewhere there is another one.
      obtain ⟨k, hk⟩ : ∃ k, m.keys[p]? = some k := ⟨_, Array.getElem?_eq_getElem (by omega)⟩
      have hne : k ≠ key := by
        intro hk'
        exact heq (h.index_inj hk (hk' ▸ hkey))
      rw [if_neg heq, hk, Option.map_some, if_neg hne]
  · have hp' : ¬ p < m.keys.size - 1 := by omega
    rw [if_neg hp, if_neg hp']
    rfl

end

/-- What a removal does. -/
structure Erased (m : DenseMap V) (key : Nat) (outcome : Option V × DenseMap V) : Prop where
  wf : outcome.2.Wf
  answer : outcome.1 = m.get? key
  get?_eq : ∀ k, outcome.2.get? k = if k = key then none else m.get? k
  keys_eq : outcome.2.keys.toList =
    if m.contains key then fillGap m.keys.toList key else m.keys.toList

theorem Wf.erased (h : m.Wf) (key : Nat) : Erased m key (m.erase key) := by
  cases hpos : m.position? key with
  | some pos =>
    rw [erase_of_position hpos]
    refine ⟨without_wf hpos h, rfl, get?_without hpos h, ?_⟩
    rw [if_pos (contains_of_position hpos)]
    exact keys_without hpos h
  | none =>
    have herase : m.erase key = (none, m) := by simp only [erase, hpos]
    rw [herase]
    refine ⟨h, (get?_of_absent hpos).symm, ?_, ?_⟩
    · intro k
      by_cases hk : k = key
      · rw [if_pos hk, hk, get?_of_absent hpos]
      · rw [if_neg hk]
    · rw [contains_of_absent hpos]
      rfl

end ArchetypeStore.DenseMap

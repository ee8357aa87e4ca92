import ArchetypeStore.Proofs.Catalog.Ending
import ArchetypeStore.Proofs.World.Census
import ArchetypeStore.Proofs.World.Runs

/-! # What entities hold

  All that the rows of a world store is what its live entities hold. An operation changes
  the holdings of one entity at most, so it is enough to compare what this entity has
  before and after: together with what comes in, what is given back and what is dropped,
  the two sides balance.
-/

namespace ArchetypeStore

variable {T V : Type}

namespace World

/-! ### Lists that differ in one place -/

/-- Replacing one value of a list. -/
theorem set_perm {values : List V} {slot : Nat} {old : V} (hold : values[slot]? = some old)
    (value : V) : (values.set slot value ++ [old]).Perm (values ++ [value]) := by
  induction values generalizing slot with
  | nil => cases hold
  | cons first rest ih =>
    cases slot with
    | zero =>
      cases hold
      have hswap := List.Perm.swap value old rest
      exact (List.perm_append_singleton old (value :: rest)).trans
        (hswap.trans (List.perm_append_singleton value (old :: rest)).symm)
    | succ slot => exact (ih hold).cons first

/-- Two functions that differ at one number below the limit. -/
theorem flatMap_exchange {f g : Nat → List V} {limit i : Nat} (hi : i < limit)
    (hsame : ∀ j, j ≠ i → g j = f j) :
    (f i ++ (List.range limit).flatMap g).Perm (g i ++ (List.range limit).flatMap f) := by
  have hsplit := List.perm_cons_erase (List.mem_range.mpr hi)
  -- Away from the number, which occurs once, the two lists are the same.
  have hrest : ((List.range limit).erase i).flatMap g = ((List.range limit).erase i).flatMap f := by
    rw [List.flatMap_def, List.flatMap_def]
    refine congrArg List.flatten (List.map_congr_left fun j hj => hsame j ?_)
    exact (List.nodup_range.mem_erase_iff.mp hj).1
  have hg := hsplit.flatMap_right g
  have hf := hsplit.flatMap_right f
  rw [List.flatMap_cons] at hg hf
  rw [hrest] at hg
  have hswap := List.perm_append_comm_assoc (f i) (g i) (((List.range limit).erase i).flatMap f)
  exact (hg.append_left _).trans (hswap.trans (hf.symm.append_left _))

/-! ### Holdings -/

/-- The values in the row of an entity; none unless it is alive. -/
def valuesOf (w : World T V) (item : Nat) : List V :=
  match w.locate ⟨w.number, item⟩ with
  | .found a id =>
    match w.valuesAt ⟨w.number, item⟩ a id with
    | .ok (_, values) => values
    | .error _ => []
  | .gone | .inTransit => []

variable [ComponentType T] {w w' : World T V}

section holdings

variable (h : w.Sound)

include h

theorem valuesOf_of_has {item : Nat} {a : Archetype T} {values : List V}
    (hhas : w.Has item a values) : w.valuesOf item = values := by
  obtain ⟨chunk, row, hseat⟩ := hhas
  have hlocate := locate_of_seat h (e := ⟨w.number, item⟩) rfl hseat
  have hvalues := valuesAt_of_seat h (e := ⟨w.number, item⟩) hseat
  unfold valuesOf
  simp only [hlocate, hvalues]

theorem valuesOf_of_not_lives {item : Nat} (hnot : ¬ w.Lives item) : w.valuesOf item = [] := by
  have hlocate := locate_of_not_owns h (e := ⟨w.number, item⟩) fun howns => hnot howns.2
  unfold valuesOf
  simp only [hlocate]

/-- What the rows store is what live entities hold. -/
theorem storedValues_perm : w.store.storedValues.Perm (w.living.flatMap w.valuesOf) := by
  have hcells : (w.store.cellsIn (List.range w.store.chunkCount)).flatMap (·.values) =
      ((w.store.cellsIn (List.range w.store.chunkCount)).map (·.item)).flatMap w.valuesOf := by
    rw [List.flatMap_map, List.flatMap_def, List.flatMap_def]
    refine congrArg List.flatten (List.map_congr_left fun cell hcell => ?_)
    obtain ⟨a, hhas⟩ := has_of_mem_cellsIn h hcell
    exact (valuesOf_of_has h hhas).symm
  rw [RowStore.storedValues_eq, hcells]
  refine (items_perm_living h List.nodup_range fun chunk row cell hcell => ?_).flatMap_right _
  obtain ⟨-, -, a, hseat⟩ := h.seated chunk row cell hcell
  exact List.mem_range.mpr (h.store.chain_lt _ _ hseat.mem_chain)

/-- Items that do not live add nothing. -/
theorem flatMap_living :
    w.living.flatMap w.valuesOf = (List.range w.store.ids.size).flatMap w.valuesOf := by
  unfold living
  induction List.range w.store.ids.size with
  | nil => rfl
  | cons item rest ih =>
    rw [List.filter_cons, List.flatMap_cons]
    split
    · rw [List.flatMap_cons, ih]
    · rename_i hlives
      rw [valuesOf_of_not_lives h (by simpa using hlives), ih]
      rfl

end holdings

/-! ### Comparing two worlds -/

/-- An item that was not touched holds the same values. -/
theorem Keeps.valuesOf_eq {touched : List Nat} (hkeeps : w.Keeps w' touched) (h : w.Sound)
    (h' : w'.Sound) {item : Nat} (hitem : item ∉ touched) :
    w'.valuesOf item = w.valuesOf item := by
  by_cases hlives : w.Lives item
  · obtain ⟨a, values, hhas⟩ := (lives_iff h).mp hlives
    rw [valuesOf_of_has h hhas, valuesOf_of_has h' ((hkeeps item hitem a values).mp hhas)]
  · have hlives' : ¬ w'.Lives item := by
      intro hlives'
      obtain ⟨a, values, hhas⟩ := (lives_iff h').mp hlives'
      exact hlives (h.lives_of_has ((hkeeps item hitem a values).mpr hhas)).1
    rw [valuesOf_of_not_lives h hlives, valuesOf_of_not_lives h' hlives']

/-- A move that touches no item stores the same values. -/
theorem Effect.stored_perm {gone : List V} (heffect : w.Effect w' [] [] gone) (h : w.Sound) :
    w'.store.storedValues.Perm w.store.storedValues := by
  have hsame : w'.valuesOf = w.valuesOf :=
    funext fun item => heffect.keeps.valuesOf_eq h heffect.sound List.not_mem_nil
  have hafter := storedValues_perm heffect.sound
  rw [flatMap_living heffect.sound, hsame, heffect.items, ← flatMap_living h] at hafter
  exact hafter.trans (storedValues_perm h).symm

/-- A move that touches one item changes what this item holds. -/
theorem Effect.stored_exchange {item : Nat} {gone : List V}
    (heffect : w.Effect w' [] [item] gone) (h : w.Sound) (hitem : item < w.store.ids.size) :
    (w.valuesOf item ++ w'.store.storedValues).Perm
      (w'.valuesOf item ++ w.store.storedValues) := by
  have hsame : ∀ item', item' ≠ item → w'.valuesOf item' = w.valuesOf item' := by
    intro item' hne
    refine heffect.keeps.valuesOf_eq h heffect.sound ?_
    rw [List.mem_singleton]
    exact hne
  have hbefore := storedValues_perm h
  have hafter := storedValues_perm heffect.sound
  rw [flatMap_living h] at hbefore
  rw [flatMap_living heffect.sound, heffect.items] at hafter
  have hexchange := flatMap_exchange hitem hsame
  exact (hafter.append_left _).trans (hexchange.trans (hbefore.symm.append_left _))

/-- An entity that is made holds the components of its bundle. -/
theorem Made.stored_perm {bundle : Bundle T V} (hmade : w.Made w' bundle) (h : w.Sound) :
    w'.store.storedValues.Perm (w.store.storedValues ++ bundle.values) := by
  obtain ⟨a, values, hhas, hperm⟩ := hmade.has
  have hlength := (hmade.sound.archetype_of_has hhas).2.2.2.2
  have hold : ∀ item ∈ List.range w.store.ids.size, w'.valuesOf item = w.valuesOf item := by
    intro item hitem
    refine hmade.keeps.valuesOf_eq h hmade.sound ?_
    rw [List.mem_singleton]
    exact Nat.ne_of_lt (List.mem_range.mp hitem)
  have hvalues : values.Perm bundle.values := by
    have hall := Bundle.values_perm hperm
    rwa [Bundle.values_zip hlength] at hall
  have hbefore := storedValues_perm h
  have hafter := storedValues_perm hmade.sound
  rw [flatMap_living h] at hbefore
  rw [flatMap_living hmade.sound, hmade.items, List.range_succ, List.flatMap_append,
    List.flatMap_singleton, valuesOf_of_has hmade.sound hhas, List.flatMap_def,
    List.map_congr_left hold, ← List.flatMap_def] at hafter
  exact hafter.trans (hbefore.symm.append hvalues)

/-! ### Balance -/

/-- What comes in with an operation, what it gives back and what it drops account for all
that is stored before and after. -/
structure Balance (w w' : World T V) (given back gone : List V) : Prop where
  stored : (w'.store.storedValues ++ (back ++ gone)).Perm (w.store.storedValues ++ given)
  dropped : w'.dropped = gone ++ w.dropped

omit [ComponentType T] in
theorem Balance.refl (w : World T V) : w.Balance w [] [] [] := ⟨List.Perm.refl _, rfl⟩

omit [ComponentType T] in
/-- Values that come in and are dropped at once. -/
theorem Balance.drop {given back gone : List V} (h : w.Balance w' given back gone)
    (values : List V) : w.Balance (w'.drop values) (values ++ given) back (values ++ gone) := by
  refine ⟨?_, ?_⟩
  · have hstored := h.stored
    have hsame : (w'.drop values).store.storedValues = w'.store.storedValues := rfl
    rw [hsame]
    classical
    rw [List.perm_iff_count] at hstored ⊢
    intro value
    have hcount := hstored value
    simp only [List.count_append] at hcount ⊢
    omega
  · rw [World.drop, h.dropped, List.append_assoc]

/-- A move that touches no item drops only what came in. -/
theorem Effect.balance {gone : List V} (heffect : w.Effect w' [] [] gone) (h : w.Sound) :
    w.Balance w' gone [] gone :=
  ⟨(heffect.stored_perm h).append_right gone, heffect.dropped⟩

theorem Made.balance {bundle : Bundle T V} (hmade : w.Made w' bundle) (h : w.Sound) :
    w.Balance w' bundle.values [] [] := by
  refine ⟨?_, hmade.dropped⟩
  rw [List.append_nil, List.append_nil]
  exact hmade.stored_perm h

/-- A bundle is stored, or its values are dropped. -/
theorem Spawned.balance {bundle : Bundle T V} {why : StoreError → Prop}
    {answer : Except StoreError Entity} (hspawned : w.Spawned bundle why answer w')
    (h : w.Sound) :
    w.Balance w' bundle.values [] (if answer.isOk then [] else bundle.values) := by
  cases hspawned with
  | made made => exact made.balance h
  | refused effect _ => exact effect.balance h

/-- For a move that touches one item it is enough that the holdings of the item balance. -/
theorem Effect.balance_of {item : Nat} {given back gone : List V}
    (heffect : w.Effect w' [] [item] gone) (h : w.Sound) (hitem : item < w.store.ids.size)
    (hholds : (w'.valuesOf item ++ (back ++ gone)).Perm (w.valuesOf item ++ given)) :
    w.Balance w' given back gone := by
  refine ⟨?_, heffect.dropped⟩
  have hexchange := heffect.stored_exchange h hitem
  classical
  rw [List.perm_iff_count] at hholds hexchange ⊢
  intro value
  have hcount := hholds value
  have hcount' := hexchange value
  simp only [List.count_append] at hcount hcount' ⊢
  omega

/-- What the refusal of a move drops: nothing, or all that the entity held. -/
def Spills (w : World T V) (item : Nat) (gone : List V) : Prop :=
  gone = [] ∨ gone.Perm (w.valuesOf item)

section migrated

variable [DecidableEq T] {e : Entity} {a : Archetype T} {values : List V} {ts : List T}
  {after : Bundle T V}

theorem Migrated.balance_ok {given back : List V} (h : w.Sound) (hhas : w.Has e.item a values)
    (hmigrated : w.Migrated e a ts (a.types.zip values) after (.ok ()) w')
    (hafter : (after.values ++ back).Perm (values ++ given)) : w.Balance w' given back [] := by
  cases hmigrated with
  | moved effect has perm =>
    have hnew := Bundle.values_perm perm
    rw [Bundle.values_zip (effect.sound.archetype_of_has has).2.2.2.2] at hnew
    refine effect.balance_of h (h.lives_of_has hhas).1.1 ?_
    rw [valuesOf_of_has effect.sound has, valuesOf_of_has h hhas, List.append_nil]
    exact (hnew.append_right back).trans hafter

theorem Migrated.balance_error {error : StoreError} (h : w.Sound)
    (hhas : w.Has e.item a values)
    (hmigrated : w.Migrated e a ts (a.types.zip values) after (.error error) w') :
    ∃ gone, w.Spills e.item gone ∧ w.Balance w' [] [] gone := by
  cases hmigrated with
  | stayed _ _ effect => exact ⟨[], .inl rfl, effect.balance h⟩
  | @lost _ _ gone _ _ effect dead perm =>
    rw [Bundle.values_zip (h.archetype_of_has hhas).2.2.2.2, ← valuesOf_of_has h hhas] at perm
    refine ⟨gone, .inr perm, effect.balance_of h (h.lives_of_has hhas).1.1 ?_⟩
    -- Who was lost holds nothing any more, and what it held is gone.
    rw [valuesOf_of_not_lives effect.sound dead, List.append_nil]
    exact perm

end migrated

/-! ### Operations -/

section operations

variable (h : w.Sound)

include h

/-- An entity that is destroyed drops all that it held. -/
theorem destroy_balance (e : Entity) :
    w.destroy e = (false, w) ∨ ∃ w', w.destroy e = (true, w') ∧
      w.Balance w' [] [] (w.valuesOf e.item) := by
  rcases owned_or_not h e with ⟨he, a, values, hhas⟩ | hnot
  · rcases destroy_cases h he hhas with ⟨w', hdestroy, heffect, hdead⟩ | ⟨_, -, hdestroy⟩
    · have hvalues := valuesOf_of_has h hhas
      rw [← hvalues] at heffect
      refine .inr ⟨w', hdestroy, heffect.balance_of h (h.lives_of_has hhas).1.1 ?_⟩
      rw [valuesOf_of_not_lives heffect.sound hdead, List.append_nil]
      exact List.Perm.refl _
    · exact .inl hdestroy
  · exact .inl (destroy_of_not_owns h hnot)

variable [DecidableEq T]

/-- A value is exchanged for what it was changed to. -/
theorem update_balance (e : Entity) (t : T) (f : V → V) :
    w.update e t f = (none, w) ∨ ∃ value w', w.update e t f = (some value, w') ∧
      w.Balance w' [f value] [value] [] := by
  rcases owned_or_not h e with ⟨he, a, values, hhas⟩ | hnot
  · by_cases ht : t ∈ a.types
    · obtain ⟨slot, value, w', hupdate, -, hvalue, heffect, hhas'⟩ :=
        update_of_mem h he hhas ht f
      refine .inr ⟨value, w', hupdate, heffect.balance_of h (h.lives_of_has hhas).1.1 ?_⟩
      rw [valuesOf_of_has heffect.sound hhas', valuesOf_of_has h hhas]
      exact set_perm hvalue (f value)
    · exact .inl (update_of_absent h he hhas ht f)
  · exact .inl (update_of_not_owns h hnot t f)

/-- A value that is handed in is stored, and what it replaces is dropped. If it is refused,
it is dropped as well. -/
theorem add_balance (e : Entity) (t : T) (value : V) :
    (∃ w', w.add e t value = (.ok (), w') ∧ w.Balance w' [value] [] (w.read? e t).toList) ∨
      ∃ error w' gone, w.add e t value = (.error error, w') ∧ w.Spills e.item gone ∧
        w.Balance w' [value] [] ([value] ++ gone) := by
  rcases owned_or_not h e with ⟨he, a, values, hhas⟩ | hnot
  · have hread := read?_of_has h he hhas t
    by_cases ht : t ∈ a.types
    · obtain ⟨slot, old, w', hadd, htype, hold, heffect, hhas'⟩ :=
        add_of_mem h he hhas ht value
      rw [Bundle.lookup_zip (types_nodup_of_has h hhas) values htype, hold] at hread
      refine .inl ⟨w', hadd, ?_⟩
      rw [hread]
      refine heffect.balance_of h (h.lives_of_has hhas).1.1 ?_
      rw [valuesOf_of_has heffect.sound hhas', valuesOf_of_has h hhas]
      exact set_perm hold value
    · rw [lookup_of_absent h hhas ht] at hread
      rcases add_of_absent h he hhas ht value with ⟨w', hadd, hmigrated⟩ |
        ⟨error, w', hadd, hmigrated⟩
      · refine .inl ⟨w', hadd, ?_⟩
        rw [hread]
        refine hmigrated.balance_ok h hhas ?_
        rw [List.append_nil, Bundle.values, List.map_append]
        have hvalues := Bundle.values_zip (h.archetype_of_has hhas).2.2.2.2
        unfold Bundle.values at hvalues
        rw [hvalues]
        exact List.Perm.refl _
      · obtain ⟨gone, hspills, hbalance⟩ := hmigrated.balance_error h hhas
        exact .inr ⟨error, w'.drop [value], gone, hadd, hspills, hbalance.drop [value]⟩
  · exact .inr ⟨.entityNotFound, w.drop [value], [], add_of_not_owns h hnot t value, .inl rfl,
      (Balance.refl w).drop [value]⟩

/-- A value that is taken off an entity is given back. -/
theorem remove_balance (e : Entity) (t : T) :
    (∃ value w', w.remove e t = (.ok value, w') ∧ w.Balance w' [] [value] []) ∨
      ∃ error w' gone, w.remove e t = (.error error, w') ∧ w.Spills e.item gone ∧
        w.Balance w' [] [] gone := by
  rcases owned_or_not h e with ⟨he, a, values, hhas⟩ | hnot
  · by_cases ht : t ∈ a.types
    · obtain ⟨-, value, -, -, -, hlookup⟩ := value_of_mem h hhas ht
      obtain ⟨result, w', hmigrated, hremove⟩ := remove_of_mem h he hhas hlookup
      cases result with
      | ok =>
        refine .inl ⟨value, w', hremove, hmigrated.balance_ok h hhas ?_⟩
        have hsplit := Bundle.values_perm (Bundle.perm_cons_eraseP hlookup)
        rw [Bundle.values_zip (h.archetype_of_has hhas).2.2.2.2] at hsplit
        rw [List.append_nil]
        exact (List.perm_append_singleton ..).trans hsplit.symm
      | error error =>
        obtain ⟨gone, hspills, hbalance⟩ := hmigrated.balance_error h hhas
        exact .inr ⟨error, w', gone, hremove, hspills, hbalance⟩
    · exact .inr ⟨_, w, [], remove_of_absent h he hhas ht, .inl rfl, .refl w⟩
  · exact .inr ⟨_, w, [], remove_of_not_owns h hnot t, .inl rfl, .refl w⟩

omit [DecidableEq T] in
/-- The end of a world drops all that is stored. -/
theorem close_balance :
    w.Balance w.close [] [] w.store.storedValues ∧ w.close.store.storedValues = [] := by
  obtain ⟨hvalues, hnothing⟩ := Catalog.close_spec h.catalog
  have hstored : w.close.store.storedValues = [] := hnothing
  refine ⟨⟨?_, ?_⟩, hstored⟩
  · rw [hstored, List.append_nil]
    exact List.Perm.refl _
  · have hdropped : w.close.dropped = w.catalog.close.1 ++ w.dropped := rfl
    rw [hdropped, hvalues]
    rfl

end operations

end World

end ArchetypeStore

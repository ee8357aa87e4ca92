import ArchetypeStore.Proofs.Archetype.Reorder
import ArchetypeStore.Proofs.Bundle
import ArchetypeStore.Proofs.RowStore.Room
import ArchetypeStore.Proofs.World.Sound

/-! # Moves

  The operations of a world are made of a few moves. The catalog grows, an item is made or
  taken back, an item leaves its seat or takes one, a flag is put on an item that is out,
  a value is replaced in place. Each move keeps the invariant for all items but those it is
  about, and leaves every other item what it has.
-/

namespace ArchetypeStore

variable {T V : Type}

namespace World

/-- A seat in another world: the same row holds the same values. -/
theorem Seat.transfer {w w' : World T V} {item : Nat} {a : Archetype T} {chunk row : Nat}
    {values : List V} (h : w.Seat item a chunk row values)
    (hformat : w'.store.format = w.store.format)
    (hhome : w'.homes[item]?.bind w'.catalog.archetype? = some a)
    (hchain : chunk ∈ w'.store.chain a.partition)
    (hcell : w'.store.cell? chunk row = some ⟨item, values⟩)
    (hid : w'.store.idOf item = w.store.idOf item) : w'.Seat item a chunk row values := by
  refine ⟨hhome, hchain, hcell, ?_, h.length⟩
  rw [hid, hformat]
  exact h.id

variable [ComponentType T]

/-! ### What a move does -/

/-- What a move does apart from its answer: the items that are out of their seats then, those
that may have changed, and the values that were dropped. -/
structure Effect (w w' : World T V) (out touched : List Nat) (gone : List V) : Prop where
  sound : w'.SoundBut out
  keeps : w.Keeps w' touched
  archetypes : ∀ key a, w.catalog.archetype? key = some a → w'.catalog.archetype? key = some a
  items : w'.store.ids.size = w.store.ids.size
  number : w'.number = w.number
  dropped : w'.dropped = gone ++ w.dropped

namespace Effect

theorem refl {w : World T V} {out : List Nat} (h : w.SoundBut out) : w.Effect w out [] [] :=
  ⟨h, .refl w [], fun _ _ ha => ha, rfl, rfl, rfl⟩

theorem trans {w w' w'' : World T V} {out out' touched : List Nat} {gone gone' : List V}
    (h : w.Effect w' out touched gone) (h' : w'.Effect w'' out' touched gone') :
    w.Effect w'' out' touched (gone' ++ gone) := by
  refine ⟨h'.sound, h.keeps.trans h'.keeps,
    fun key a ha => h'.archetypes key a (h.archetypes key a ha), h'.items.trans h.items,
    h'.number.trans h.number, ?_⟩
  rw [h'.dropped, h.dropped, List.append_assoc]

theorem mono {w w' : World T V} {out touched touched' : List Nat} {gone : List V}
    (h : w.Effect w' out touched gone) (hsub : touched ⊆ touched') :
    w.Effect w' out touched' gone :=
  ⟨h.sound, h.keeps.mono hsub, h.archetypes, h.items, h.number, h.dropped⟩

end Effect

/-- An item that is destroyed needs no seat. -/
theorem SoundBut.settle {w : World T V} {item : Nat} (h : w.SoundBut [item])
    (hdead : ¬ w.Lives item) : w.Sound := by
  refine ⟨h.catalog, h.store, h.dense, h.homes, h.bundles, ?_, ?_⟩
  · intro chunk row cell hcell
    obtain ⟨hlt, -, hseat⟩ := h.seated chunk row cell hcell
    exact ⟨hlt, List.not_mem_nil, hseat⟩
  · intro item' hlives _
    refine h.lives item' hlives ?_
    rw [List.mem_singleton]
    rintro rfl
    exact hdead hlives

/-- Dropping values is a move that touches nothing. -/
theorem SoundBut.drop_effect {w : World T V} {out : List Nat} (h : w.SoundBut out)
    (values : List V) : w.Effect (w.drop values) out [] values :=
  ⟨h.drop values, keeps_drop w values [], fun _ _ ha => ha, rfl, rfl, rfl⟩

/-! ### Moves that leave the rows as they are -/

/-- No row changes, each item that has a seat keeps it, and none comes to life that was not
alive. Items that are out of their seats before or after may change otherwise. -/
structure Carries (w w' : World T V) (out out' : List Nat) : Prop where
  catalog : w'.catalog.Wf
  store : w'.store.Sound []
  dense : w'.store.Dense
  homes : w'.homes.size = w'.store.ids.size
  bundles : w'.bundles = w.bundles
  archetypes : ∀ key a, w.catalog.archetype? key = some a → w'.catalog.archetype? key = some a
  cell : ∀ chunk row, w'.store.cell? chunk row = w.store.cell? chunk row
  items : ∀ item, item < w.store.ids.size → item ∉ out →
    item < w'.store.ids.size ∧ item ∉ out'
  seats : ∀ item a chunk row values, w.Seat item a chunk row values →
    w'.Seat item a chunk row values
  lives : ∀ item, item ∉ out' → w'.Lives item → w.Lives item ∧ item ∉ out

namespace Carries

variable {w w' : World T V} {out out' : List Nat} (c : w.Carries w' out out')

include c

theorem has {item : Nat} {a : Archetype T} {values : List V} (hhas : w.Has item a values) :
    w'.Has item a values := by
  obtain ⟨chunk, row, hs⟩ := hhas
  exact ⟨chunk, row, c.seats _ _ _ _ _ hs⟩

variable (h : w.SoundBut out)

include h

theorem sound : w'.SoundBut out' := by
  refine ⟨c.catalog, c.store, c.dense, c.homes, ?_, ?_, ?_⟩
  · intro ts key hmem
    rw [c.bundles] at hmem
    obtain ⟨a, ha, hperm⟩ := h.bundles ts key hmem
    exact ⟨a, c.archetypes key a ha, hperm⟩
  · intro chunk row cell hcell
    rw [c.cell] at hcell
    obtain ⟨hlt, hout, a, hs⟩ := h.seated chunk row cell hcell
    obtain ⟨hlt', hout'⟩ := c.items cell.item hlt hout
    exact ⟨hlt', hout', a, c.seats _ _ _ _ _ hs⟩
  · intro item hl hout'
    obtain ⟨hl', hout⟩ := c.lives item hout' hl
    obtain ⟨a, values, hhas⟩ := h.lives item hl' hout
    exact ⟨a, values, c.has hhas⟩

theorem keeps {touched : List Nat} (hout : out ⊆ touched) (hout' : out' ⊆ touched) :
    w.Keeps w' touched :=
  .of_forward h (c.sound h) hout
    (fun item hitem hl => (c.lives item (fun hmem => hitem (hout' hmem)) hl).1)
    fun _ _ _ _ hhas => c.has hhas

end Carries

/-! ### Growth of the catalog -/

/-- A catalog that grows does not touch the items. -/
theorem SoundBut.grow {w : World T V} {out : List Nat} (h : w.SoundBut out)
    {catalog : Catalog T V} (hwf : catalog.Wf) (hstore : catalog.store.Sound [])
    (hgrows : w.catalog.Grows catalog) : w.Effect { w with catalog } out out [] := by
  have hids : catalog.store.ids = w.store.ids := hgrows.store.ids
  have hseat : ∀ item a chunk row values, w.Seat item a chunk row values →
      Seat { w with catalog } item a chunk row values := by
    intro item a chunk row values hseat
    have hlayout := (h.archetype_of_has ⟨chunk, row, hseat⟩).2.2.2.1
    refine hseat.transfer hgrows.store.format ?_ ?_ ?_ (hgrows.store.idOf item)
    · obtain ⟨key, hkey, ha⟩ := Option.bind_eq_some_iff.mp hseat.home
      exact Option.bind_eq_some_iff.mpr ⟨key, hkey, hgrows.archetypes key a ha⟩
    · have hused : (w.catalog.store.layout? a.partition).isSome :=
        Option.isSome_of_eq_some hlayout
      have hchain : catalog.store.chain a.partition = w.store.chain a.partition :=
        hgrows.store.chain a.partition hused
      exact hchain ▸ hseat.mem_chain
    · have hcell : catalog.store.cell? chunk row = w.store.cell? chunk row :=
        hgrows.store.cell? chunk row
      exact hcell.trans hseat.cell
  have hcarries : w.Carries { w with catalog } out out := by
    refine ⟨hwf, hstore, hgrows.store.dense h.dense, h.homes.trans (congrArg Array.size hids.symm),
      rfl, hgrows.archetypes, hgrows.store.cell?, fun item hlt hout => ⟨hids.symm ▸ hlt, hout⟩,
      hseat, ?_⟩
    rintro item hout ⟨hlt, hid⟩
    have hsame : catalog.store.idOf item = w.store.idOf item := hgrows.store.idOf item
    exact ⟨⟨hids ▸ hlt, hsame ▸ hid⟩, hout⟩
  exact ⟨hcarries.sound h, hcarries.keeps h (List.Subset.refl _) (List.Subset.refl _),
    hgrows.archetypes, congrArg Array.size hids, rfl, rfl⟩

/-- So does a change of the memory. -/
theorem SoundBut.withMemory_effect {w : World T V} {out : List Nat} (h : w.SoundBut out)
    (m : Memory) : w.Effect (w.withMemory m) out out [] := by
  obtain ⟨hwf, hgrows⟩ := h.catalog.withMemory m
  exact h.grow hwf (h.store.withMemory m) hgrows

/-! ### Items that come and go -/

omit [ComponentType T] in
/-- A store with other id words is as sound. -/
theorem sound_withIds {s : RowStore T V} {reserved : List SlotId} (h : s.Sound reserved)
    (ids : Array SlotId) : RowStore.Sound { s with ids } reserved :=
  h.congr ⟨rfl, rfl, fun _ => rfl, fun _ => rfl⟩ (fun _ => rfl) (fun _ _ => rfl) (fun _ => rfl)
    h.room

section comeAndGo

variable {w : World T V}

/-- A new item is out of its seat at first. -/
theorem newEntity_effect (h : w.Sound) (home : UInt64) :
    (w.newEntity home).2.SoundBut [w.store.ids.size] ∧
      w.Keeps (w.newEntity home).2 [w.store.ids.size] := by
  have hseat : ∀ item a chunk row values, w.Seat item a chunk row values →
      (w.newEntity home).2.Seat item a chunk row values := by
    intro item a chunk row values hseat
    have hlt : item < w.homes.size := by
      rw [h.homes]
      exact (h.seated chunk row _ hseat.cell).1
    refine hseat.transfer rfl ?_ hseat.mem_chain hseat.cell (RowStore.idOf_newItem w.store item)
    -- Old items keep their homes; the new one comes behind them.
    have hpush : (w.homes.push home)[item]? = w.homes[item]? := by
      rw [Array.getElem?_push, if_neg (Nat.ne_of_lt hlt)]
    exact (congrArg (·.bind w.catalog.archetype?) hpush).trans hseat.home
  have hsize : (w.newEntity home).2.store.ids.size = w.store.ids.size + 1 := Array.size_push ..
  have hid : ∀ item, (w.newEntity home).2.store.idOf item = w.store.idOf item :=
    RowStore.idOf_newItem w.store
  have hcarries : w.Carries (w.newEntity home).2 [] [w.store.ids.size] := by
    refine ⟨h.catalog.withStore fun _ _ hq => hq, sound_withIds h.store _, h.dense, ?_, rfl,
      fun _ _ ha => ha, fun _ _ => rfl, ?_, hseat, ?_⟩
    · rw [hsize, ← h.homes]
      exact Array.size_push ..
    · intro item hlt _
      rw [hsize, List.mem_singleton]
      omega
    · rintro item hitem ⟨hlt, hflag⟩
      rw [hsize] at hlt
      rw [hid] at hflag
      rw [List.mem_singleton] at hitem
      exact ⟨⟨by omega, hflag⟩, List.not_mem_nil⟩
  exact ⟨hcarries.sound h, hcarries.keeps h (List.nil_subset _) (List.Subset.refl _)⟩

/-- The last item can be taken back while it is out of its seat. -/
theorem dropLastEntity_effect {n : Nat} (h : w.SoundBut [n]) (hsize : w.store.ids.size = n + 1) :
    w.dropLastEntity.Sound ∧ w.Keeps w.dropLastEntity [n] := by
  have hpop : ∀ {α : Type} (entries : Array α) (i : Nat), i < entries.size - 1 →
      entries.pop[i]? = entries[i]? := by
    intro α entries i hi
    rw [Array.getElem?_pop, if_pos hi]
  have hseat : ∀ item a chunk row values, w.Seat item a chunk row values →
      w.dropLastEntity.Seat item a chunk row values := by
    intro item a chunk row values hseat
    obtain ⟨hlt, hout, -⟩ := h.seated chunk row _ hseat.cell
    rw [List.mem_singleton] at hout
    have hlt' : item < n := by
      have : (⟨item, values⟩ : Cell V).item = item := rfl
      omega
    refine hseat.transfer rfl ?_ hseat.mem_chain hseat.cell ?_
    · have hhome : w.homes.pop[item]? = w.homes[item]? := hpop _ _ (by rw [h.homes]; omega)
      exact (congrArg (·.bind w.catalog.archetype?) hhome).trans hseat.home
    · have hids : w.store.ids.pop[item]? = w.store.ids[item]? := hpop _ _ (by omega)
      exact congrArg (·.getD 0) hids
  have hsize' : w.dropLastEntity.store.ids.size = n := by
    have : w.dropLastEntity.store.ids.size = w.store.ids.size - 1 := Array.size_pop ..
    omega
  have hcarries : w.Carries w.dropLastEntity [n] [] := by
    refine ⟨h.catalog.withStore fun _ _ hq => hq, sound_withIds h.store _, h.dense, ?_, rfl,
      fun _ _ ha => ha, fun _ _ => rfl, ?_, hseat, ?_⟩
    · have hhomes : w.dropLastEntity.homes.size = w.homes.size - 1 := Array.size_pop ..
      rw [hhomes, h.homes, hsize, hsize']
      rfl
    · intro item hlt hout
      rw [List.mem_singleton] at hout
      exact ⟨by omega, List.not_mem_nil⟩
    · rintro item - ⟨hlt, hflag⟩
      rw [hsize'] at hlt
      have hids : w.store.ids.pop[item]? = w.store.ids[item]? := hpop _ _ (by omega)
      have hid : w.dropLastEntity.store.idOf item = w.store.idOf item := congrArg (·.getD 0) hids
      rw [hid] at hflag
      refine ⟨⟨by omega, hflag⟩, ?_⟩
      rw [List.mem_singleton]
      omega
  exact ⟨hcarries.sound h, hcarries.keeps h (List.Subset.refl _) (List.nil_subset _)⟩

/-- A flag on an item that is out of its seat. -/
theorem flag_effect {out : List Nat} (h : w.SoundBut out) {e : Entity} (he : e.item ∈ out)
    (f : SlotId → SlotId) : w.Effect (w.flag e f) out out [] := by
  by_cases hitem : e.item < w.store.ids.size
  · have hid : ∀ item, item ≠ e.item → (w.flag e f).store.idOf item = w.store.idOf item := by
      intro item hne
      exact (RowStore.idOf_setId w.store e.item (f (w.idOf e)) item hitem).trans (if_neg hne)
    have hsize : (w.flag e f).store.ids.size = w.store.ids.size :=
      RowStore.itemCount_setId w.store e.item _
    have hseat : ∀ item a chunk row values, w.Seat item a chunk row values →
        (w.flag e f).Seat item a chunk row values := by
      intro item a chunk row values hseat
      obtain ⟨-, hout⟩ := h.lives_of_has ⟨chunk, row, hseat⟩
      refine hseat.transfer rfl hseat.home hseat.mem_chain hseat.cell (hid item ?_)
      rintro rfl
      exact hout he
    have hcarries : w.Carries (w.flag e f) out out := by
      refine ⟨h.catalog.withStore fun _ _ hq => hq, sound_withIds h.store _, h.dense, ?_, rfl,
        fun _ _ ha => ha, fun _ _ => rfl, fun item hlt hout => ⟨hsize ▸ hlt, hout⟩, hseat, ?_⟩
      · rw [hsize, ← h.homes]
        rfl
      · rintro item hout ⟨hlt, hflag⟩
        -- The flag is on an item that is out, so on none of the others.
        rw [hid item (by rintro rfl; exact hout he)] at hflag
        exact ⟨⟨hsize ▸ hlt, hflag⟩, hout⟩
    exact ⟨hcarries.sound h, hcarries.keeps h (List.Subset.refl _) (List.Subset.refl _),
      fun _ _ ha => ha, hsize, rfl, rfl⟩
  · -- There is no such item, and no id word changes.
    have hsame : w.flag e f = w := by
      unfold flag withStore RowStore.setId
      rw [Array.setIfInBounds_eq_of_size_le (Nat.le_of_not_lt hitem)]
      rfl
    rw [hsame]
    exact (Effect.refl h).mono (List.nil_subset _)

end comeAndGo

/-! ### Taking a seat -/

section takeSeat

variable {w w' : World T V} {item : Nat} {a : Archetype T}

/-- An item that is out of its seat takes a row of an archetype. -/
theorem seat_effect (h : w.SoundBut [item]) (hitem : item < w.store.ids.size)
    (ha : w.catalog.archetype? a.key = some a) {store : RowStore T V} {chunk row : Nat}
    {values : List V} (hsound : store.Sound [])
    (hstored : w.store.Stored store a.partition chunk row item values) (hdense : store.Dense)
    (hlength : values.length = a.types.length) :
    w.Effect ((w.setHome item a.key).withStore store) [] [item] [] ∧
      ((w.setHome item a.key).withStore store).Has item a values := by
  have hid : ∀ item', store.idOf item' =
      if item' = item then w.store.format.slotId chunk row else w.store.idOf item' := by
    intro item'
    rw [← RowStore.idOf_setId w.store item _ item' hitem]
    exact congrArg (fun ids : Array SlotId => ids[item']?.getD 0) hstored.ids
  have hsize : store.ids.size = w.store.ids.size := by
    rw [hstored.ids, Array.size_setIfInBounds]
  have hhome : ∀ item', item' ≠ item →
      (w.homes.setIfInBounds item a.key)[item']? = w.homes[item']? :=
    fun item' hne => Array.getElem?_setIfInBounds_ne (Ne.symm hne)
  have hown : ((w.setHome item a.key).withStore store).Seat item a chunk row values := by
    refine ⟨?_, hstored.mem_chain, hstored.cell_self, ?_, hlength⟩
    · have hkey : (w.homes.setIfInBounds item a.key)[item]? = some a.key :=
        Array.getElem?_setIfInBounds_self_of_lt (by rw [h.homes]; exact hitem)
      exact Option.bind_eq_some_iff.mpr ⟨a.key, hkey, ha⟩
    · have := hid item
      rw [if_pos rfl] at this
      exact this.trans (congrArg (·.slotId chunk row) hstored.steady.format.symm)
  have hseat : ∀ item' a' chunk' row' values', w.Seat item' a' chunk' row' values' →
      ((w.setHome item a.key).withStore store).Seat item' a' chunk' row' values' := by
    intro item' a' chunk' row' values' hseat
    have hne : item' ≠ item := by
      have := (h.lives_of_has ⟨chunk', row', hseat⟩).2
      rwa [List.mem_singleton] at this
    refine hseat.transfer hstored.steady.format ?_ (hstored.steady.mem_chain hseat.mem_chain)
      (hstored.cell_of_some hseat.cell) ((hid item').trans (if_neg hne))
    exact (congrArg (·.bind w.catalog.archetype?) (hhome item' hne)).trans hseat.home
  have hlives : ∀ item', item' ∉ [item] →
      ((w.setHome item a.key).withStore store).Lives item' → w.Lives item' := by
    rintro item' hne ⟨hlt, hflag⟩
    rw [List.mem_singleton] at hne
    have hsame : ((w.setHome item a.key).withStore store).store.idOf item' =
        w.store.idOf item' := (hid item').trans (if_neg hne)
    exact ⟨hsize ▸ hlt, hsame ▸ hflag⟩
  have hsound : ((w.setHome item a.key).withStore store).Sound := by
    refine ⟨h.catalog.withStore fun q layout hq => (hstored.steady.layout q).trans hq, hsound,
      hdense, ?_, h.bundles, ?_, ?_⟩
    · exact Array.size_setIfInBounds.trans (h.homes.trans hsize.symm)
    · intro chunk' row' cell hcell
      have hcell' := (hstored.cell chunk' row').symm.trans hcell
      split at hcell'
      · rename_i heq
        obtain ⟨rfl, rfl⟩ := heq
        cases hcell'
        exact ⟨hsize.symm ▸ hitem, List.not_mem_nil, a, hown⟩
      · obtain ⟨hlt, -, a', hs⟩ := h.seated chunk' row' cell hcell'
        exact ⟨hsize.symm ▸ hlt, List.not_mem_nil, a', hseat _ _ _ _ _ hs⟩
    · intro item' hl _
      by_cases hne : item' ∈ [item]
      · rw [List.mem_singleton] at hne
        subst hne
        exact ⟨a, values, chunk, row, hown⟩
      · obtain ⟨a', values', chunk', row', hs⟩ := h.lives item' (hlives item' hne hl) hne
        exact ⟨a', values', chunk', row', hseat _ _ _ _ _ hs⟩
  refine ⟨⟨hsound, Keeps.of_forward h hsound (List.Subset.refl _) hlives ?_, fun _ _ ha => ha,
    hsize, rfl, rfl⟩, chunk, row, hown⟩
  rintro item' - a' values' ⟨chunk', row', hs⟩
  exact ⟨chunk', row', hseat _ _ _ _ _ hs⟩

/-- An item that is out of its seat may get any home. -/
theorem setHome_effect (h : w.SoundBut [item]) (key : UInt64) :
    w.Effect (w.setHome item key) [item] [item] [] := by
  have hseat : ∀ item' a' chunk' row' values', w.Seat item' a' chunk' row' values' →
      (w.setHome item key).Seat item' a' chunk' row' values' := by
    intro item' a' chunk' row' values' hseat
    have hne : item' ≠ item := by
      have := (h.lives_of_has ⟨chunk', row', hseat⟩).2
      rwa [List.mem_singleton] at this
    refine hseat.transfer rfl ?_ hseat.mem_chain hseat.cell rfl
    have hhome : (w.homes.setIfInBounds item key)[item']? = w.homes[item']? :=
      Array.getElem?_setIfInBounds_ne (Ne.symm hne)
    exact (congrArg (·.bind w.catalog.archetype?) hhome).trans hseat.home
  have hcarries : w.Carries (w.setHome item key) [item] [item] :=
    ⟨h.catalog, h.store, h.dense, Array.size_setIfInBounds.trans h.homes, rfl, fun _ _ ha => ha,
      fun _ _ => rfl, fun _ hlt hout => ⟨hlt, hout⟩, hseat, fun _ hout hl => ⟨hl, hout⟩⟩
  exact ⟨hcarries.sound h, hcarries.keeps h (List.Subset.refl _) (List.Subset.refl _),
    fun _ _ ha => ha, rfl, rfl, rfl⟩

variable [DecidableEq T] {components : Bundle T V}

/-- Components that are moved in are those of the item then. -/
theorem moveIn_ok (h : w.SoundBut [item]) (hitem : item < w.store.ids.size)
    (ha : w.catalog.archetype? a.key = some a) {id : SlotId}
    (hmove : w.moveIn a item components = (.ok id, w')) :
    w.Effect w' [] [item] [] ∧ ∃ values, w'.Has item a values ∧
      (a.types.zip values).Perm components := by
  unfold moveIn at hmove
  split at hmove
  · cases hmove
  · rename_i ordered hreorder
    obtain ⟨hwf, -, -⟩ := h.catalog.archetype_wf ha
    obtain ⟨htypes, hperm⟩ := Archetype.reorder_ok hwf h.catalog.registry hreorder
    have hlength : (Bundle.values ordered).length = a.types.length := by
      rw [← htypes, Bundle.values, Bundle.types, List.length_map, List.length_map]
    have hzip : a.types.zip (Bundle.values ordered) = ordered := by
      rw [← htypes, Bundle.values, Bundle.types, List.zip_map', List.map_id']
    cases hinsert : w.store.insert a.partition item (Bundle.values ordered) with
    | mk answer store =>
      rw [hinsert] at hmove
      cases hmove
      obtain ⟨chunk, row, -, -, hsound, hstored, hdense⟩ := RowStore.insert_ok h.store hinsert
      obtain ⟨heffect, hhas⟩ :=
        seat_effect h hitem ha hsound hstored (hdense h.dense) hlength
      refine ⟨heffect, _, hhas, ?_⟩
      rw [hzip]
      exact hperm

/-- No slot of the archetype is issued, and this is why. -/
def NoRoom (w : World T V) (a : Archetype T) (error : StoreError) : Prop :=
  (w.store.issue a.partition).1 = .error error

omit [DecidableEq T] in
/-- Then it cannot grow. -/
theorem NoRoom.cannotGrow {out : List Nat} (h : w.SoundBut out)
    (ha : w.catalog.archetype? a.key = some a) {error : StoreError} (hfull : w.NoRoom a error) :
    w.store.CannotGrow a.types error := by
  obtain ⟨-, -, hlayout⟩ := h.catalog.archetype_wf ha
  exact (RowStore.issue_error h.store hlayout (Prod.ext hfull rfl)).2

omit [DecidableEq T] in
/-- A partition that was just made has room. -/
theorem NoRoom.not_fresh {out : List Nat} (h : w.SoundBut out) {error : StoreError}
    (hfull : w.NoRoom a error) : ¬ w.store.Fresh a.partition :=
  RowStore.not_fresh_of_issue_error h.store (Prod.ext hfull rfl)

/-- Why an archetype does not take components: they are not components of its types, or it
has no room. -/
inductive Declines (w : World T V) (a : Archetype T) (components : Bundle T V)
    (error : StoreError) : Prop where
  | unfit (refused : (a.reorder w.registry components).1 = .error error)
  | full (fits : (Bundle.types components).Perm a.types) (full : w.NoRoom a error)

/-- Components of its types it declines for want of room only. -/
theorem Declines.noRoom {out : List Nat} (h : w.SoundBut out)
    (ha : w.catalog.archetype? a.key = some a) {error : StoreError}
    (hdeclines : w.Declines a components error)
    (hfits : (Bundle.types components).Perm a.types) : w.NoRoom a error := by
  cases hdeclines with
  | unfit refused =>
    obtain ⟨hwf, -, -⟩ := h.catalog.archetype_wf ha
    obtain ⟨ordered, hok⟩ := Archetype.reorder_of_perm hwf h.catalog.registry hfits
    rw [show w.registry = w.catalog.registry from rfl, hok] at refused
    cases refused
  | full _ full => exact full

/-- Components that are refused change nothing but the home of the item, which stays out of
its seat. -/
theorem moveIn_error (h : w.SoundBut [item]) (ha : w.catalog.archetype? a.key = some a)
    {e : StoreError} (hmove : w.moveIn a item components = (.error e, w')) :
    w.Effect w' [item] [item] [] ∧ w.Declines a components e ∧
      (w' = w.setHome item a.key ∨ w' = w ∧ ¬ (Bundle.types components).Perm a.types) := by
  obtain ⟨hwf, -, -⟩ := h.catalog.archetype_wf ha
  unfold moveIn at hmove
  split at hmove
  · rename_i hreorder
    cases hmove
    refine ⟨(Effect.refl h).mono (List.nil_subset _), .unfit (congrArg Prod.fst hreorder),
      .inr ⟨rfl, fun hperm => ?_⟩⟩
    obtain ⟨ordered, hok⟩ := Archetype.reorder_of_perm hwf h.catalog.registry hperm
    rw [show w.registry = w.catalog.registry from rfl, hok] at hreorder
    cases hreorder
  · rename_i ordered hreorder
    obtain ⟨htypes, hperm⟩ := Archetype.reorder_ok hwf h.catalog.registry hreorder
    have hfits : (Bundle.types components).Perm a.types :=
      htypes ▸ (Bundle.types_perm hperm).symm
    cases hinsert : w.store.insert a.partition item (Bundle.values ordered) with
    | mk answer store =>
      rw [hinsert] at hmove
      cases hmove
      obtain rfl := RowStore.insert_stays h.store hinsert
      have hissue := RowStore.issue_of_insert_error h.store hinsert
      exact ⟨setHome_effect h a.key, .full hfits (congrArg Prod.fst hissue), .inl rfl⟩

end takeSeat

/-! ### Leaving a seat -/

section leaveSeat

variable {w : World T V} {item : Nat} {a : Archetype T} {chunk row given : Nat} {values : List V}
  {store : RowStore T V}

/-- Items in other rows than the gap and the row given up stay where they are. -/
theorem Seat.stay (h : w.Sound) (hvacated : w.store.Vacated store chunk row given) {item' : Nat}
    {a' : Archetype T} {c r : Nat} {values' : List V} (hseat : w.Seat item' a' c r values')
    (hgiven : ¬(c = chunk ∧ r = given)) (hrow : ¬(c = chunk ∧ r = row)) :
    (w.withStore store).Seat item' a' c r values' := by
  refine hseat.transfer hvacated.same.format hseat.home ?_ ?_ ?_
  · exact (hvacated.same.chain a'.partition).symm ▸ hseat.mem_chain
  · have hcell := hvacated.cell c r
    rw [if_neg hgiven, if_neg hrow] at hcell
    exact hcell.trans hseat.cell
  · rcases hvacated.ids with ⟨-, hids⟩ | ⟨-, moved, hmoved, hids⟩
    · exact congrArg (fun ids : Array SlotId => ids[item']?.getD 0) hids
    · -- The item is not the one that moved, which has its seat elsewhere.
      obtain ⟨hlt, -, a₁, hs⟩ := h.seated chunk given moved hmoved
      have hne : item' ≠ moved.item := by
        rintro rfl
        obtain ⟨-, rfl, rfl, -⟩ := h.seat_unique hseat hs
        exact hgiven ⟨rfl, rfl⟩
      have hid := RowStore.idOf_setId w.store moved.item
        (SlotId.relocate (w.store.idOf moved.item) (w.store.format.slotId chunk row)) item' hlt
      rw [if_neg hne] at hid
      exact (congrArg (fun ids : Array SlotId => ids[item']?.getD 0) hids).trans hid

/-- The item of the row given up moves into the gap. -/
theorem Seat.shift (h : w.Sound) (hvacated : w.store.Vacated store chunk row given)
    (hseat : w.Seat item a chunk row values) (hne : given ≠ row) {item' : Nat}
    {a' : Archetype T} {values' : List V} (hmoved : w.Seat item' a' chunk given values') :
    (w.withStore store).Seat item' a' chunk row values' := by
  refine ⟨hmoved.home, ?_, ?_, ?_, hmoved.length⟩
  · exact (hvacated.same.chain a'.partition).symm ▸ hmoved.mem_chain
  · have hcell := hvacated.cell chunk row
    rw [if_neg (fun heq => hne heq.2.symm), if_pos ⟨rfl, rfl⟩] at hcell
    exact hcell.trans hmoved.cell
  · rcases hvacated.ids with ⟨heq, -⟩ | ⟨-, moved, hcell, hids⟩
    · exact absurd heq hne
    · have hitem : moved.item = item' := by
        rw [hmoved.cell] at hcell
        cases hcell
        rfl
      obtain ⟨hlt, -⟩ := h.seated chunk given moved hcell
      have hid : (w.store.relocate moved.item (w.store.format.slotId chunk row)).idOf item' =
          w.store.format.slotId chunk row := by
        rw [RowStore.relocate, RowStore.idOf_setId _ _ _ _ hlt, if_pos hitem.symm, hitem]
        exact SlotId.relocate_of_isPlain (h.plain_of_seat hmoved)
          (hseat.id ▸ h.plain_of_seat hseat)
      have hformat : (w.withStore store).store.format = w.store.format := hvacated.same.format
      rw [hformat]
      exact (congrArg (fun ids : Array SlotId => ids[item']?.getD 0) hids).trans hid

/-- Emptying the row of an item takes it out of its seat. -/
theorem vacate_effect (h : w.Sound) (hseat : w.Seat item a chunk row values)
    (hsound : store.Sound []) (hvacated : w.store.Vacated store chunk row given)
    (hdense : store.Dense) : w.Effect (w.withStore store) [item] [item] [] := by
  have hsize : store.ids.size = w.store.ids.size := by
    rcases hvacated.ids with ⟨-, hids⟩ | ⟨-, moved, -, hids⟩
    · rw [hids]
    · rw [hids]
      exact RowStore.itemCount_setId ..
  have hother : ∀ item', item' ≠ item → ∀ a' values', w.Has item' a' values' →
      (w.withStore store).Has item' a' values' := by
    rintro item' hne a' values' ⟨c, r, hs⟩
    have hrow : ¬(c = chunk ∧ r = row) := by
      rintro ⟨rfl, rfl⟩
      have hcell := hs.cell.symm.trans hseat.cell
      cases hcell
      exact hne rfl
    by_cases hgiven : c = chunk ∧ r = given
    · obtain ⟨rfl, rfl⟩ := hgiven
      exact ⟨c, row, Seat.shift h hvacated hseat (fun heq => hrow ⟨rfl, heq⟩) hs⟩
    · exact ⟨c, r, hs.stay h hvacated hgiven hrow⟩
  have hlives : ∀ item', item' ∉ [item] → (w.withStore store).Lives item' → w.Lives item' := by
    rintro item' - ⟨hlt, hflag⟩
    refine ⟨hsize ▸ hlt, ?_⟩
    rcases hvacated.ids with ⟨-, hids⟩ | ⟨hne, moved, hmoved, hids⟩
    · have hid : (w.withStore store).store.idOf item' = w.store.idOf item' :=
        congrArg (fun ids : Array SlotId => ids[item']?.getD 0) hids
      exact hid ▸ hflag
    · obtain ⟨hlt', -, a', hs⟩ := h.seated chunk given moved hmoved
      have hid := RowStore.idOf_setId w.store moved.item
        (SlotId.relocate (w.store.idOf moved.item) (w.store.format.slotId chunk row)) item' hlt'
      split at hid
      · rename_i heq
        subst heq
        exact SlotId.not_isDetached_of_isPlain (h.plain_of_seat hs)
      · have hsame : (w.withStore store).store.idOf item' = w.store.idOf item' :=
          (congrArg (fun ids : Array SlotId => ids[item']?.getD 0) hids).trans hid
        exact hsame ▸ hflag
  have hsound' : (w.withStore store).SoundBut [item] := by
    refine ⟨h.catalog.withStore fun q layout hq => (hvacated.same.layout q).trans hq, hsound,
      hdense, h.homes.trans hsize.symm, h.bundles, ?_, ?_⟩
    · intro c r cell hcell
      have hcell' := (hvacated.cell c r).symm.trans hcell
      split at hcell'
      · cases hcell'
      · rename_i hgiven
        split at hcell'
        · rename_i hrow
          obtain ⟨rfl, rfl⟩ := hrow
          obtain ⟨hlt, -, a', hs⟩ := h.seated c given cell hcell'
          refine ⟨hsize.symm ▸ hlt, ?_, a',
            Seat.shift h hvacated hseat (fun heq => hgiven ⟨rfl, heq.symm⟩) hs⟩
          rw [List.mem_singleton]
          intro heq
          rw [heq] at hs
          obtain ⟨-, -, hrow, -⟩ := h.seat_unique hs hseat
          exact hgiven ⟨rfl, hrow.symm⟩
        · rename_i hrow
          obtain ⟨hlt, -, a', hs⟩ := h.seated c r cell hcell'
          refine ⟨hsize.symm ▸ hlt, ?_, a', hs.stay h hvacated hgiven hrow⟩
          rw [List.mem_singleton]
          intro heq
          rw [heq] at hs
          obtain ⟨-, hc, hr, -⟩ := h.seat_unique hs hseat
          exact hrow ⟨hc, hr⟩
    · intro item' hl hne
      obtain ⟨a', values', hhas⟩ := h.lives item' (hlives item' hne hl) List.not_mem_nil
      rw [List.mem_singleton] at hne
      exact ⟨a', values', hother item' hne a' values' hhas⟩
  refine ⟨hsound', Keeps.of_forward h hsound' (List.nil_subset _) hlives ?_, fun _ _ ha => ha,
    hsize, rfl, rfl⟩
  intro item' hne
  rw [List.mem_singleton] at hne
  exact hother item' hne

/-- Room on a free stack is seen by no item. -/
theorem alike_effect {out : List Nat} (h : w.SoundBut out) (halike : w.store.Alike store)
    (hsound : store.Sound []) : w.Effect (w.withStore store) out [] [] := by
  have hid : ∀ item, (w.withStore store).store.idOf item = w.store.idOf item :=
    fun item => congrArg (fun ids : Array SlotId => ids[item]?.getD 0) halike.ids
  have hseat : ∀ item a chunk row values, w.Seat item a chunk row values →
      (w.withStore store).Seat item a chunk row values := by
    intro item a chunk row values hseat
    refine hseat.transfer halike.format hseat.home ?_ ?_ (hid item)
    · exact (halike.chain a.partition).symm ▸ hseat.mem_chain
    · exact (halike.cell? chunk row).trans hseat.cell
  have hback : ∀ item a chunk row values, (w.withStore store).Seat item a chunk row values →
      w.Seat item a chunk row values := by
    intro item a chunk row values hseat
    refine hseat.transfer halike.format.symm hseat.home ?_ ?_ (hid item).symm
    · exact halike.chain a.partition ▸ hseat.mem_chain
    · exact (halike.cell? chunk row).symm.trans hseat.cell
  have hsize : store.ids.size = w.store.ids.size := congrArg Array.size halike.ids
  have hcarries : w.Carries (w.withStore store) out out := by
    refine ⟨h.catalog.withStore fun q layout hq => (halike.layout q).trans hq, hsound,
      halike.dense h.dense, h.homes.trans hsize.symm, rfl, fun _ _ ha => ha, halike.cell?,
      fun item hlt hout => ⟨hsize.symm ▸ hlt, hout⟩, hseat, ?_⟩
    rintro item hout ⟨hlt, hflag⟩
    exact ⟨⟨hsize ▸ hlt, hid item ▸ hflag⟩, hout⟩
  refine ⟨hcarries.sound h, ?_, fun _ _ ha => ha, hsize, rfl, rfl⟩
  intro item _ a values
  refine ⟨hcarries.has, ?_⟩
  rintro ⟨chunk, row, hs⟩
  exact ⟨chunk, row, hback _ _ _ _ _ hs⟩

end leaveSeat

/-! ### Values replaced in place -/

/-- New values in the row of an item. -/
theorem rewrite_effect {w : World T V} {item : Nat} {a : Archetype T} {chunk row : Nat}
    {values : List V} (h : w.Sound) (hseat : w.Seat item a chunk row values)
    (values' : List V) (hlength : values'.length = a.types.length) :
    w.Effect (w.withStore (w.store.setCell chunk row (some ⟨item, values'⟩))) [] [item] [] ∧
      (w.withStore (w.store.setCell chunk row (some ⟨item, values'⟩))).Has item a values' := by
  have hrow := RowStore.lt_fill_of_cell? hseat.cell
  have hsame : w.store.SameChains (w.store.setCell chunk row (some ⟨item, values'⟩)) :=
    RowStore.SameChains.modifyRows w.store chunk _
  have hcell := RowStore.cell?_setCell w.store hrow (some ⟨item, values'⟩)
  have hfill := RowStore.fill_setCell w.store hrow (some ⟨item, values'⟩)
  have hsome : ∀ c r, ((w.store.setCell chunk row (some ⟨item, values'⟩)).cell? c r).isSome =
      (w.store.cell? c r).isSome := by
    intro c r
    rw [hcell]
    split
    · rename_i heq
      rw [heq.1, heq.2, hseat.cell]
      rfl
    · rfl
  have hown : (w.withStore (w.store.setCell chunk row (some ⟨item, values'⟩))).Seat item a chunk
      row values' := by
    refine ⟨hseat.home, ?_, (hcell chunk row).trans (if_pos ⟨rfl, rfl⟩), hseat.id, hlength⟩
    exact (hsame.chain a.partition).symm ▸ hseat.mem_chain
  have hother : ∀ item' a' c r vs, item' ≠ item → w.Seat item' a' c r vs →
      (w.withStore (w.store.setCell chunk row (some ⟨item, values'⟩))).Seat item' a' c r vs := by
    intro item' a' c r vs hne hs
    refine hs.transfer rfl hs.home ?_ ?_ rfl
    · exact (hsame.chain a'.partition).symm ▸ hs.mem_chain
    · refine (hcell c r).trans ((if_neg ?_).trans hs.cell)
      rintro ⟨rfl, rfl⟩
      have := hs.cell.symm.trans hseat.cell
      cases this
      exact hne rfl
  have hsound : (w.withStore (w.store.setCell chunk row (some ⟨item, values'⟩))).Sound := by
    refine ⟨h.catalog.withStore fun q layout hq => (hsame.layout q).trans hq,
      h.store.congr hsame hfill hsome (fun _ => rfl) h.store.room, ?_, h.homes, h.bundles, ?_, ?_⟩
    · intro c r hr
      exact (hsome c r).trans (h.dense c r ((hfill c).symm ▸ hr))
    · intro c r cell hc
      have hc' := (hcell c r).symm.trans hc
      split at hc'
      · rename_i heq
        obtain ⟨rfl, rfl⟩ := heq
        cases hc'
        exact ⟨(h.seated c r _ hseat.cell).1, List.not_mem_nil, a, hown⟩
      · rename_i hne
        obtain ⟨hlt, hout, a', hs⟩ := h.seated c r cell hc'
        refine ⟨hlt, hout, a', hother _ _ _ _ _ ?_ hs⟩
        intro heq
        rw [heq] at hs
        -- The item has one seat, so another row is the seat of another.
        obtain ⟨-, hcc, hrr, -⟩ := h.seat_unique hs hseat
        exact hne ⟨hcc, hrr⟩
    · intro item' hl _
      by_cases heq : item' = item
      · subst heq
        exact ⟨a, values', chunk, row, hown⟩
      · obtain ⟨a', vs, c, r, hs⟩ := h.lives item' hl List.not_mem_nil
        exact ⟨a', vs, c, r, hother _ _ _ _ _ heq hs⟩
  refine ⟨⟨hsound, Keeps.of_forward h hsound (List.nil_subset _) (fun _ _ hl => hl) ?_,
    fun _ _ ha => ha, rfl, rfl, rfl⟩, chunk, row, hown⟩
  rintro item' hne a' vs ⟨c, r, hs⟩
  rw [List.mem_singleton] at hne
  exact ⟨c, r, hother _ _ _ _ _ hne hs⟩

end World

end ArchetypeStore

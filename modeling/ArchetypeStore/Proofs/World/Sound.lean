import ArchetypeStore.Proofs.Catalog.Ensure
import ArchetypeStore.World.Migration

/-! # The invariant of a world

  Between two operations every item that is not destroyed sits in one row of the archetype
  that is its home, carries the plain id of the row, and has one value for each type of the
  archetype; and every row that holds an item is the seat of that item. While an operation
  is under way one item may be out of its seat.
-/

namespace ArchetypeStore

variable {T V : Type}

namespace World

/-! ### Seats -/

/-- The item sits in a row of its home archetype. -/
structure Seat (w : World T V) (item : Nat) (a : Archetype T) (chunk row : Nat)
    (values : List V) : Prop where
  home : w.homes[item]?.bind w.catalog.archetype? = some a
  mem_chain : chunk ∈ w.store.chain a.partition
  cell : w.store.cell? chunk row = some ⟨item, values⟩
  id : w.store.idOf item = w.store.format.slotId chunk row
  length : values.length = a.types.length

/-- The item is at home in the archetype and has these values there. -/
def Has (w : World T V) (item : Nat) (a : Archetype T) (values : List V) : Prop :=
  ∃ chunk row, w.Seat item a chunk row values

/-- The item was made and not destroyed. -/
def Lives (w : World T V) (item : Nat) : Prop :=
  item < w.store.ids.size ∧ (w.store.idOf item).isDetached = false

variable [ComponentType T]

/-- The invariant, but for the items that are out of their seats. -/
structure SoundBut (w : World T V) (out : List Nat) : Prop where
  catalog : w.catalog.Wf
  store : w.store.Sound []
  dense : w.store.Dense
  homes : w.homes.size = w.store.ids.size
  /-- A remembered key leads to the archetype of the bundle type. -/
  bundles : ∀ ts key, (ts, key) ∈ w.bundles →
    ∃ a, w.catalog.archetype? key = some a ∧ a.types.Perm ts
  /-- A row that holds an item is the seat of the item. -/
  seated : ∀ chunk row cell, w.store.cell? chunk row = some cell →
    cell.item < w.store.ids.size ∧ cell.item ∉ out ∧
      ∃ a, w.Seat cell.item a chunk row cell.values
  /-- An item that lives has a seat. -/
  lives : ∀ item, w.Lives item → item ∉ out → ∃ a values, w.Has item a values

/-- The invariant between two operations. -/
abbrev Sound (w : World T V) : Prop := w.SoundBut []

namespace SoundBut

variable {w : World T V} {out : List Nat} (h : w.SoundBut out)

include h

theorem plain_of_seat {item : Nat} {a : Archetype T} {chunk row : Nat} {values : List V}
    (hseat : w.Seat item a chunk row values) : (w.store.idOf item).isPlain = true := by
  rw [hseat.id]
  exact h.store.slotId_isPlain (h.store.chain_lt _ _ hseat.mem_chain)
    (h.store.lt_rowsPerChunk (RowStore.lt_fill_of_cell? hseat.cell))

/-- Who has a seat was made and not destroyed, and is not out. -/
theorem lives_of_has {item : Nat} {a : Archetype T} {values : List V}
    (hhas : w.Has item a values) : w.Lives item ∧ item ∉ out := by
  obtain ⟨chunk, row, hseat⟩ := hhas
  obtain ⟨hlt, hout, -⟩ := h.seated chunk row _ hseat.cell
  exact ⟨⟨hlt, SlotId.not_isDetached_of_isPlain (h.plain_of_seat hseat)⟩, hout⟩

/-- An item has one seat. -/
theorem seat_unique {item : Nat} {a a' : Archetype T} {chunk row chunk' row' : Nat}
    {values values' : List V} (hseat : w.Seat item a chunk row values)
    (hseat' : w.Seat item a' chunk' row' values') :
    a = a' ∧ chunk = chunk' ∧ row = row' ∧ values = values' := by
  -- The home fixes the archetype, and the id fixes the row.
  have ha : a = a' := Option.some.inj (hseat.home.symm.trans hseat'.home)
  have hslot := hseat.id.symm.trans hseat'.id
  rw [h.store.slotId_eq_iff (h.store.chain_lt _ _ hseat.mem_chain)
    (h.store.lt_rowsPerChunk (RowStore.lt_fill_of_cell? hseat.cell))
    (h.store.chain_lt _ _ hseat'.mem_chain)
    (h.store.lt_rowsPerChunk (RowStore.lt_fill_of_cell? hseat'.cell))] at hslot
  obtain ⟨rfl, rfl⟩ := hslot
  have hcell := hseat.cell.symm.trans hseat'.cell
  exact ⟨ha, rfl, rfl, congrArg Cell.values (Option.some.inj hcell)⟩

theorem has_unique {item : Nat} {a a' : Archetype T} {values values' : List V}
    (hhas : w.Has item a values) (hhas' : w.Has item a' values') : a = a' ∧ values = values' := by
  obtain ⟨chunk, row, hseat⟩ := hhas
  obtain ⟨chunk', row', hseat'⟩ := hhas'
  obtain ⟨ha, -, -, hvalues⟩ := h.seat_unique hseat hseat'
  exact ⟨ha, hvalues⟩

/-- The archetype at home is that of the catalog under its key. -/
theorem archetype_of_has {item : Nat} {a : Archetype T} {values : List V}
    (hhas : w.Has item a values) :
    w.catalog.archetype? a.key = some a ∧ w.homes[item]? = some a.key ∧
      a.Wf w.registry ∧ w.store.layout? a.partition = some a.types ∧
        values.length = a.types.length := by
  obtain ⟨chunk, row, hseat⟩ := hhas
  obtain ⟨key, hkey, ha⟩ := Option.bind_eq_some_iff.mp hseat.home
  obtain ⟨hwf, rfl, hlayout⟩ := h.catalog.archetype_wf ha
  exact ⟨ha, hkey, hwf, hlayout, hseat.length⟩

/-- Looking up the place of an entity with a seat leads to the seat. -/
theorem locate_of_seat {item : Nat} {a : Archetype T} {chunk row : Nat} {values : List V}
    (hseat : w.Seat item a chunk row values) :
    w.store.locate a.partition (w.store.idOf item) = some (chunk, row) := by
  rw [hseat.id]
  exact h.store.locate_slotId hseat.mem_chain (RowStore.lt_fill_of_cell? hseat.cell)

end SoundBut

/-! ### What an operation leaves alone -/

/-- All items but those touched have the same archetype and values as before. -/
def Keeps (w w' : World T V) (touched : List Nat) : Prop :=
  ∀ item, item ∉ touched → ∀ a values, w.Has item a values ↔ w'.Has item a values

omit [ComponentType T] in
theorem Keeps.refl (w : World T V) (touched : List Nat) : w.Keeps w touched :=
  fun _ _ _ _ => Iff.rfl

omit [ComponentType T] in
theorem Keeps.trans {w w' w'' : World T V} {touched : List Nat} (h : w.Keeps w' touched)
    (h' : w'.Keeps w'' touched) : w.Keeps w'' touched :=
  fun item hitem a values => (h item hitem a values).trans (h' item hitem a values)

omit [ComponentType T] in
theorem Keeps.mono {w w' : World T V} {touched touched' : List Nat} (h : w.Keeps w' touched)
    (hsub : touched ⊆ touched') : w.Keeps w' touched' :=
  fun item hitem => h item fun hmem => hitem (hsub hmem)

/-- An item that lives neither before nor after is as good as untouched. -/
theorem Keeps.of_absent {w w' : World T V} {out out' : List Nat} (h : w.SoundBut out)
    (h' : w'.SoundBut out') {item : Nat} (hbefore : ¬ w.Lives item) (hafter : ¬ w'.Lives item)
    (hkeeps : w.Keeps w' [item]) : w.Keeps w' [] := by
  intro other _ a values
  by_cases hother : other = item
  · subst hother
    exact iff_of_false (fun hhas => hbefore (h.lives_of_has hhas).1)
      fun hhas => hafter (h'.lives_of_has hhas).1
  · exact hkeeps other (mt List.mem_singleton.mp hother) a values

/-- Where no other item comes to life, it is enough that all others keep what they have. -/
theorem Keeps.of_forward {w w' : World T V} {out out' touched : List Nat} (h : w.SoundBut out)
    (h' : w'.SoundBut out') (hout : out ⊆ touched)
    (hlives : ∀ item, item ∉ touched → w'.Lives item → w.Lives item)
    (hhas : ∀ item, item ∉ touched → ∀ a values, w.Has item a values → w'.Has item a values) :
    w.Keeps w' touched := by
  intro item hitem a values
  refine ⟨hhas item hitem a values, fun hother => ?_⟩
  -- Who has something now lived before, had something then and kept it.
  obtain ⟨hlives', -⟩ := h'.lives_of_has hother
  obtain ⟨a₀, values₀, hold⟩ := h.lives item (hlives item hitem hlives')
    fun hmem => hitem (hout hmem)
  obtain ⟨rfl, rfl⟩ := h'.has_unique (hhas item hitem _ _ hold) hother
  exact hold

/-! ### Worlds with the same items -/

omit [ComponentType T] in
theorem Seat.congr {w w' : World T V} (hcatalog : w'.catalog = w.catalog)
    (hhomes : w'.homes = w.homes) {item : Nat} {a : Archetype T} {chunk row : Nat}
    {values : List V} (h : w.Seat item a chunk row values) :
    w'.Seat item a chunk row values := by
  have hstore : w'.store = w.store := congrArg Catalog.store hcatalog
  refine ⟨?_, ?_, ?_, ?_, h.length⟩
  · rw [hhomes, hcatalog]
    exact h.home
  · rw [hstore]
    exact h.mem_chain
  · rw [hstore]
    exact h.cell
  · rw [hstore]
    exact h.id

omit [ComponentType T] in
theorem has_congr {w w' : World T V} (hcatalog : w'.catalog = w.catalog)
    (hhomes : w'.homes = w.homes) (item : Nat) (a : Archetype T) (values : List V) :
    w.Has item a values ↔ w'.Has item a values := by
  constructor
  · rintro ⟨chunk, row, hseat⟩
    exact ⟨chunk, row, hseat.congr hcatalog hhomes⟩
  · rintro ⟨chunk, row, hseat⟩
    exact ⟨chunk, row, hseat.congr hcatalog.symm hhomes.symm⟩

theorem SoundBut.congr {w w' : World T V} {out : List Nat} (h : w.SoundBut out)
    (hcatalog : w'.catalog = w.catalog) (hhomes : w'.homes = w.homes)
    (hbundles : ∀ ts key, (ts, key) ∈ w'.bundles →
      ∃ a, w.catalog.archetype? key = some a ∧ a.types.Perm ts) : w'.SoundBut out := by
  have hstore : w'.store = w.store := congrArg Catalog.store hcatalog
  refine ⟨?_, ?_, ?_, ?_, ?_, ?_, ?_⟩
  · rw [hcatalog]
    exact h.catalog
  · rw [hstore]
    exact h.store
  · rw [hstore]
    exact h.dense
  · rw [hhomes, hstore]
    exact h.homes
  · rw [hcatalog]
    exact hbundles
  · intro chunk row cell hcell
    rw [hstore] at hcell ⊢
    obtain ⟨hlt, hout, a, hseat⟩ := h.seated chunk row cell hcell
    exact ⟨hlt, hout, a, hseat.congr hcatalog hhomes⟩
  · intro item hlives hout
    unfold Lives at hlives
    rw [hstore] at hlives
    obtain ⟨a, values, hhas⟩ := h.lives item hlives hout
    exact ⟨a, values, (has_congr hcatalog hhomes item a values).mp hhas⟩

/-- Dropping values touches no item. -/
theorem SoundBut.drop {w : World T V} {out : List Nat} (h : w.SoundBut out)
    (values : List V) : (w.drop values).SoundBut out := h.congr rfl rfl h.bundles

omit [ComponentType T] in
theorem keeps_drop (w : World T V) (values : List V) (touched : List Nat) :
    w.Keeps (w.drop values) touched := by
  intro item _ a vs
  have hcatalog : (w.drop values).catalog = w.catalog := rfl
  have hhomes : (w.drop values).homes = w.homes := rfl
  exact has_congr hcatalog hhomes item a vs

/-! ### The world without entities -/

omit [ComponentType T] in
theorem create_eq {number : Nat} {settings : Settings} {w : World T V}
    (h : create number settings = .ok w) :
    ∃ c, Catalog.create settings = .ok c ∧ w = ⟨number, settings, c, [], #[], []⟩ := by
  unfold create at h
  cases hcatalog : (Catalog.create settings : Except StoreError (Catalog T V)) with
  | error e =>
    rw [hcatalog] at h
    cases h
  | ok c =>
    rw [hcatalog] at h
    cases h
    exact ⟨c, rfl, rfl⟩

/-- A world that was created is sound and has no items. -/
theorem create_sound {number : Nat} {settings : Settings} {w : World T V}
    (h : create number settings = .ok w) :
    w.Sound ∧ w.number = number ∧ w.store.ids.size = 0 ∧ w.dropped = [] := by
  obtain ⟨c, hcatalog, rfl⟩ := create_eq h
  obtain ⟨hwf, hvalid, hempty⟩ := Catalog.create_wf hcatalog
  have hstore : c.store.Sound [] := by
    rw [hempty]
    exact RowStore.empty_sound hvalid
  have hfill : ∀ chunk, c.store.fill chunk = 0 := by
    intro chunk
    rw [hempty]
    rfl
  have hcell : ∀ chunk row, c.store.cell? chunk row = none := by
    intro chunk row
    rw [hempty]
    rfl
  have hsize : c.store.ids.size = 0 := by
    rw [hempty]
    rfl
  refine ⟨⟨hwf, hstore, ?_, hsize.symm, ?_, ?_, ?_⟩, rfl, hsize, rfl⟩
  · intro chunk row hr
    have hr' : row < c.store.fill chunk := hr
    rw [hfill] at hr'
    exact absurd hr' (Nat.not_lt_zero row)
  · intro ts key hmem
    cases hmem
  · intro chunk row cell hsome
    have := (hcell chunk row).symm.trans hsome
    cases this
  · rintro item ⟨hlt, -⟩
    have hlt' : item < c.store.ids.size := hlt
    omega

omit [ComponentType T] in
/-- A world that was created has no archetypes. -/
theorem create_archetype? {number : Nat} {settings : Settings} {w : World T V}
    (h : create number settings = .ok w) (key : UInt64) : w.catalog.archetype? key = none := by
  obtain ⟨c, hcatalog, rfl⟩ := create_eq h
  exact Catalog.create_archetype? hcatalog key

end World

end ArchetypeStore

import ArchetypeStore.Proofs.World.History

/-! # Ids and rows agree

  The id of a live entity is the id of the row that holds it, in its archetype. The other
  way round, each published row of an archetype holds one live entity, which carries the
  id of the row and is at home there. So no two live entities carry the same id, in
  whatever archetypes they are.
-/

namespace ArchetypeStore

variable {T V : Type}

namespace RowStore

/-! ### Published rows -/

theorem mem_publishedFrom {start row : Nat} {rows : List (Option (Cell V))} {cell : Cell V} :
    (row, cell) ∈ Chunk.publishedFrom start rows ↔
      ∃ i, rows[i]? = some (some cell) ∧ row = start + i := by
  induction rows generalizing start with
  | nil => simp [Chunk.publishedFrom]
  | cons first rest ih =>
    -- Row `i` of the list is the first one, or row `i - 1` of the rest.
    have hsplit : (∃ i, (first :: rest)[i]? = some (some cell) ∧ row = start + i) ↔
        (first = some cell ∧ row = start) ∨
          ∃ i, rest[i]? = some (some cell) ∧ row = start + 1 + i := by
      constructor
      · rintro ⟨i, hi, rfl⟩
        cases i with
        | zero => exact .inl ⟨Option.some.inj hi, rfl⟩
        | succ i => exact .inr ⟨i, hi, by omega⟩
      · rintro (⟨rfl, rfl⟩ | ⟨i, hi, rfl⟩)
        · exact ⟨0, rfl, rfl⟩
        · exact ⟨i + 1, hi, by omega⟩
    rw [hsplit]
    cases first with
    | none => simp [Chunk.publishedFrom, ih]
    | some other => simp [Chunk.publishedFrom, ih, and_comm, eq_comm]

/-- Walked are the rows in the chain of the partition that hold an item. -/
theorem mem_walk {s : RowStore T V} {partition : Nat} {v : RowView V} :
    v ∈ s.walk partition ↔ ∃ chunk ∈ s.chain partition, ∃ row cell,
      s.cell? chunk row = some cell ∧ v = ⟨s.format.slotId chunk row, chunk, row, some cell⟩ := by
  unfold walk
  rw [List.mem_flatMap]
  apply exists_congr
  intro chunk
  apply and_congr_right
  intro _
  unfold cell?
  cases s.chunks[chunk]? with
  | none => simp
  | some c =>
    simp only [List.mem_map, Prod.exists, Chunk.published, mem_publishedFrom, Option.bind_some,
      Chunk.cell?, Option.join_eq_some_iff, Array.getElem?_toList]
    constructor
    · rintro ⟨row, cell, ⟨i, hcell, rfl⟩, rfl⟩
      rw [Nat.zero_add]
      exact ⟨i, cell, hcell, rfl⟩
    · rintro ⟨row, cell, hcell, rfl⟩
      exact ⟨row, cell, ⟨row, hcell, (Nat.zero_add row).symm⟩, rfl⟩

end RowStore

namespace World

/-! ### Agreement -/

/-- The row holds the entity. -/
def Holds (v : RowView V) (e : Entity) : Prop := v.cell.map (·.item) = some e.item

/-- The entity is one of this world and alive. -/
def IsLive (w : World T V) (e : Entity) : Prop := e.world = w.number ∧ w.isAlive e = true

/-- Live entities and published rows belong together one to one. -/
structure Agrees (w : World T V) : Prop where
  /-- The id of a live entity is plain and names a published row of its archetype that
  holds the entity. -/
  located : ∀ e, w.IsLive e →
    (w.idOf e).isDetached = false ∧ (w.idOf e).isReserved = false ∧
      ∃ a ∈ w.catalog.archetypes, w.home? e = some a ∧
        ∃ v ∈ w.store.walk a.partition, w.store.row a.partition (w.idOf e) = .ok v ∧
          v.id = w.idOf e ∧ Holds v e
  /-- A published row of an archetype holds one live entity, which carries the id of the row
  and is at home in the archetype. -/
  published : ∀ a ∈ w.catalog.archetypes, ∀ v ∈ w.store.walk a.partition,
    ∃ e, w.IsLive e ∧ Holds v e ∧ w.idOf e = v.id ∧ w.home? e = some a ∧
      ∀ e', w.IsLive e' → Holds v e' → e' = e
  /-- No two live entities carry the same id. -/
  distinct : ∀ e e', w.IsLive e → w.IsLive e' → w.idOf e = w.idOf e' → e = e'

variable [ComponentType T] {w : World T V}

/-- An entity is alive when it has a seat. -/
theorem isLive_iff (h : w.Sound) (e : Entity) :
    w.IsLive e ↔ e.world = w.number ∧ ∃ a values, w.Has e.item a values := by
  apply and_congr_right
  intro _
  rw [← lives_iff h]
  constructor
  · intro halive
    simp only [isAlive, home?, Bool.and_eq_true, Bool.not_eq_eq_eq_not, Bool.not_true] at halive
    obtain ⟨hflag, hhome⟩ := halive
    refine ⟨?_, hflag⟩
    -- Who has a home was made.
    obtain ⟨a, ha⟩ := Option.isSome_iff_exists.mp hhome
    obtain ⟨key, hkey, -⟩ := Option.bind_eq_some_iff.mp ha
    rw [← h.homes]
    exact (Array.getElem?_eq_some_iff.mp hkey).1
  · intro hlives
    obtain ⟨a, values, chunk, row, hseat⟩ := (lives_iff h).mp hlives
    have hflag : (w.idOf e).isDetached = false := hlives.2
    have hhome : w.home? e = some a := hseat.home
    simp [isAlive, hflag, hhome]

omit [ComponentType T] in
/-- A live entity is the only one of its item. -/
theorem eq_of_item {e e' : Entity} (he : w.IsLive e) (he' : w.IsLive e')
    (hitem : e'.item = e.item) : e' = e := by
  have hworld : e'.world = e.world := he'.1.trans he.1.symm
  cases e
  cases e'
  cases hworld
  cases hitem
  rfl

/-- In a sound world ids and rows agree. -/
theorem Sound.agrees (h : w.Sound) : w.Agrees := by
  refine ⟨fun e he => ?_, fun a ha v hv => ?_, fun e e' he he' hid => ?_⟩
  · obtain ⟨-, a, values, chunk, row, hseat⟩ := (isLive_iff h e).mp he
    have hplain := h.plain_of_seat hseat
    refine ⟨SlotId.not_isDetached_of_isPlain hplain, SlotId.not_isReserved_of_isPlain hplain,
      a, ?_, hseat.home, w.store.view chunk row, ?_, row_of_seat h hseat, hseat.id.symm, ?_⟩
    · exact (Catalog.mem_archetypes h.catalog).mpr (h.archetype_of_has ⟨_, _, hseat⟩).1
    · refine RowStore.mem_walk.mpr ⟨chunk, hseat.mem_chain, row, _, hseat.cell, ?_⟩
      rw [RowStore.view, hseat.cell]
    · show (w.store.cell? chunk row).map _ = _
      rw [hseat.cell]
      rfl
  · obtain ⟨chunk, hchunk, row, cell, hcell, rfl⟩ := RowStore.mem_walk.mp hv
    obtain ⟨-, -, a', hseat⟩ := h.seated chunk row cell hcell
    have ha' := (h.archetype_of_has ⟨chunk, row, hseat⟩).1
    -- The chunk lies in one chain, and the partition belongs to one archetype.
    have hkey : a'.key = a.key :=
      h.catalog.partitions _ _ _ _ ha' ((Catalog.mem_archetypes h.catalog).mp ha)
        (h.store.chain_disjoint _ _ _ hseat.mem_chain hchunk)
    rw [hkey, (Catalog.mem_archetypes h.catalog).mp ha] at ha'
    cases ha'
    have hlive : w.IsLive ⟨w.number, cell.item⟩ :=
      (isLive_iff h _).mpr ⟨rfl, a, cell.values, chunk, row, hseat⟩
    refine ⟨⟨w.number, cell.item⟩, hlive, rfl, hseat.id, hseat.home, fun e' he' hholds => ?_⟩
    exact eq_of_item hlive he' (Option.some.inj hholds).symm
  · obtain ⟨-, a, values, chunk, row, hseat⟩ := (isLive_iff h e).mp he
    obtain ⟨-, a', values', chunk', row', hseat'⟩ := (isLive_iff h e').mp he'
    -- The id fixes the row, and the row holds one item.
    have hslot := (hseat.id.symm.trans hid).trans hseat'.id
    rw [h.store.slotId_eq_iff (h.store.chain_lt _ _ hseat.mem_chain)
      (h.store.lt_rowsPerChunk (RowStore.lt_fill_of_cell? hseat.cell))
      (h.store.chain_lt _ _ hseat'.mem_chain)
      (h.store.lt_rowsPerChunk (RowStore.lt_fill_of_cell? hseat'.cell))] at hslot
    obtain ⟨rfl, rfl⟩ := hslot
    have hcell := hseat.cell.symm.trans hseat'.cell
    exact eq_of_item he' he (congrArg Cell.item (Option.some.inj hcell))

variable [DecidableEq T]

/-- After every history of a world the ids of its live entities agree with its rows. -/
theorem ids_agree {number : Nat} {settings : Settings}
    (made : World.create number settings = .ok w) (events : List (Event T V)) :
    (w.after events).Agrees :=
  (after_sound (create_sound made).1 events).agrees

/-- Three entities share an archetype, to which one comes directly. The first one leaves its
row to the last one, and the second one moves away. -/
def shuffled : List (Event Sample Nat) :=
  [.call (.create [(.position, 1)]), .call (.create [(.position, 2)]), .node [.velocity],
    .spawnIn 1 [(.position, 3)], .call (.create [(.position, 4), (.position, 5)]),
    .call (.destroy ⟨0, 0⟩), .call (.add ⟨0, 1⟩ .velocity 6), .call (.remove ⟨0, 2⟩ .velocity)]

theorem ids_agree_shuffled : ∃ w : World Sample Nat, World.create 0 .default = .ok w ∧
    (w.after shuffled).Agrees := by
  obtain ⟨w, hcreate⟩ : ∃ w : World Sample Nat, World.create 0 .default = .ok w :=
    exists_of_isOk (by decide)
  exact ⟨w, hcreate, ids_agree hcreate shuffled⟩

end World

end ArchetypeStore

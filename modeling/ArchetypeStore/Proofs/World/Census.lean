import ArchetypeStore.Proofs.World.Sound

/-! # A census of the rows

  The rows that hold an item are listed chunk after chunk. In a sound world the items of
  such a list are distinct, the list of all archetypes has every item that lives, and no
  chunk outside the archetypes holds anything. So counting claimed rows counts the
  entities that live.
-/

namespace ArchetypeStore

variable {T V : Type}

namespace RowStore

/-- What the rows of some chunks hold, chunk after chunk. -/
def cellsIn (s : RowStore T V) (chunks : List Nat) : List (Cell V) :=
  chunks.flatMap fun chunk => (s.rows chunk).toList.filterMap id

theorem mem_cells_of_chunk {s : RowStore T V} {chunk : Nat} {cell : Cell V} :
    cell ∈ (s.rows chunk).toList.filterMap id ↔ ∃ row, s.cell? chunk row = some cell := by
  rw [List.mem_filterMap]
  simp only [id_eq, exists_eq_right, cell?_eq, Option.join_eq_some_iff]
  rw [List.mem_iff_getElem?]
  simp only [Array.getElem?_toList]

theorem mem_cellsIn {s : RowStore T V} {chunks : List Nat} {cell : Cell V} :
    cell ∈ s.cellsIn chunks ↔ ∃ chunk ∈ chunks, ∃ row, s.cell? chunk row = some cell := by
  simp only [cellsIn, List.mem_flatMap, mem_cells_of_chunk]

/-- In dense chunks every claimed row counts. -/
theorem length_cellsIn {s : RowStore T V} (h : s.Dense) (chunks : List Nat) :
    (s.cellsIn chunks).length = (chunks.map s.fill).foldr (· + ·) 0 := by
  have hchunk : ∀ chunk, ((s.rows chunk).toList.filterMap id).length = s.fill chunk := by
    intro chunk
    rw [fill_eq, ← Array.length_toList, List.length_filterMap_eq_countP, List.countP_eq_length]
    intro cell hcell
    obtain ⟨row, hrow⟩ := List.getElem?_of_mem hcell
    rw [Array.getElem?_toList] at hrow
    have hlt : row < s.fill chunk := by
      rw [fill_eq]
      exact (Array.getElem?_eq_some_iff.mp hrow).1
    -- A claimed row of a dense store holds something.
    have hsome := h chunk row hlt
    rw [cell?_eq, hrow] at hsome
    simpa using hsome
  unfold cellsIn
  rw [List.length_flatMap]
  exact congrArg _ (List.map_congr_left fun chunk _ => hchunk chunk)

/-- The published rows of a chunk are those that are not empty. -/
theorem map_publishedFrom (start : Nat) (rows : List (Option (Cell V))) :
    (Chunk.publishedFrom start rows).map (·.2) = rows.filterMap id := by
  induction rows generalizing start with
  | nil => rfl
  | cons row rest ih =>
    cases row with
    | none => exact ih (start + 1)
    | some cell => exact congrArg (cell :: ·) (ih (start + 1))

theorem storedValues_eq (s : RowStore T V) :
    s.storedValues = (s.cellsIn (List.range s.chunkCount)).flatMap (·.values) := by
  have hchunks : (List.range s.chunkCount).map (fun i => s.rows i) =
      s.chunks.toList.map (·.rows) := by
    apply List.ext_getElem
    · simp [chunkCount]
    · intro i hi hi'
      have hlt : i < s.chunks.size := by simpa using hi'
      simp [rows, hlt]
  have hcells : ∀ c : Chunk T V, c.published.flatMap (·.2.values) =
      (c.rows.toList.filterMap id).flatMap (·.values) := by
    intro c
    rw [← map_publishedFrom 0, List.flatMap_map]
    rfl
  calc s.storedValues
      = (s.chunks.toList.map (·.rows)).flatMap
          fun rows => (rows.toList.filterMap id).flatMap (·.values) := by
        rw [List.flatMap_map]
        rw [storedValues, List.flatMap_def, List.flatMap_def]
        exact congrArg List.flatten (List.map_congr_left fun c _ => hcells c)
    _ = (s.cellsIn (List.range s.chunkCount)).flatMap (·.values) := by
        rw [← hchunks, List.flatMap_map, cellsIn, List.flatMap_assoc]

end RowStore

namespace Catalog

/-! ### All archetypes -/

theorem archetypes_eq (c : Catalog T V) :
    c.archetypes = (c.root :: c.nodes.nodes).filterMap (·.archetype) := by
  unfold archetypes
  cases harch : c.root.archetype <;> simp [harch]

variable [ComponentType T] {c : Catalog T V} (h : c.Wf)

include h

theorem mem_nodes_iff {n : SetNode T} {key : UInt64} :
    c.node? key = some n ↔ n ∈ c.root :: c.nodes.nodes ∧ n.key = key := by
  unfold node?
  rw [List.mem_cons]
  split
  · rename_i hroot
    constructor
    · intro heq
      cases heq
      exact ⟨.inl rfl, h.root_key.trans hroot.symm⟩
    · rintro ⟨rfl | hmem, hkey⟩
      · rfl
      · exact absurd (hkey.trans hroot) ((h.nodes.nodes n hmem).key_ne_rootKey h.registry)
  · rename_i hroot
    rw [h.nodes.get?_eq_some_iff]
    constructor
    · rintro ⟨hmem, hkey⟩
      exact ⟨.inr hmem, hkey⟩
    · rintro ⟨rfl | hmem, hkey⟩
      · exact absurd (hkey.symm.trans h.root_key) hroot
      · exact ⟨hmem, hkey⟩

theorem keys_nodup : ((c.root :: c.nodes.nodes).map (·.key)).Nodup := by
  rw [List.map_cons, List.nodup_cons]
  refine ⟨fun hmem => ?_, h.nodes.keys_nodup⟩
  obtain ⟨n, hn, hkey⟩ := List.mem_map.mp hmem
  exact (h.nodes.nodes n hn).key_ne_rootKey h.registry (hkey.trans h.root_key)

theorem mem_archetypes {a : Archetype T} :
    a ∈ c.archetypes ↔ c.archetype? a.key = some a := by
  rw [archetypes_eq, List.mem_filterMap]
  constructor
  · rintro ⟨n, hn, harch⟩
    have hget : c.archetype? n.key = some a := by
      rw [archetype?, (mem_nodes_iff h).mpr ⟨hn, rfl⟩]
      exact harch
    obtain ⟨-, hkey, -⟩ := h.archetype_wf hget
    rw [hkey]
    exact hget
  · intro hget
    obtain ⟨n, hn, harch⟩ := Option.bind_eq_some_iff.mp hget
    exact ⟨n, ((mem_nodes_iff h).mp hn).1, harch⟩

/-- Each partition belongs to one archetype. -/
theorem partitions_distinct :
    c.archetypes.Pairwise fun a a' => a.partition ≠ a'.partition := by
  rw [archetypes_eq, List.pairwise_filterMap]
  have hkeys := keys_nodup h
  rw [List.nodup_iff_pairwise_ne, List.pairwise_map] at hkeys
  refine (List.Pairwise.and_mem.mp hkeys).imp ?_
  rintro n n' ⟨hn, hn', hne⟩ a ha a' ha' hpartition
  have hget : ∀ m, m ∈ c.root :: c.nodes.nodes → ∀ b, m.archetype = some b →
      c.archetype? m.key = some b := by
    intro m hm b hb
    rw [archetype?, (mem_nodes_iff h).mpr ⟨hm, rfl⟩]
    exact hb
  exact hne (h.partitions n.key n'.key a a' (hget n hn a ha) (hget n' hn' a' ha') hpartition)

end Catalog

namespace World

/-- The chunks of all archetypes. -/
def chunks (w : World T V) : List Nat :=
  w.catalog.archetypes.flatMap fun a => w.store.chain a.partition

instance (w : World T V) (item : Nat) : Decidable (w.Lives item) :=
  inferInstanceAs (Decidable (_ ∧ _))

/-- The items that live, ascending. -/
def living (w : World T V) : List Nat :=
  (List.range w.store.ids.size).filter fun item => decide (w.Lives item)

theorem mem_living {w : World T V} {item : Nat} : item ∈ w.living ↔ w.Lives item := by
  rw [living, List.mem_filter, List.mem_range, decide_eq_true_iff]
  exact ⟨fun hboth => hboth.2, fun hlives => ⟨hlives.1, hlives⟩⟩

theorem living_nodup (w : World T V) : w.living.Nodup :=
  List.nodup_range.sublist List.filter_sublist

variable [ComponentType T] {w : World T V} (h : w.Sound)

include h

/-- No item is listed twice. -/
theorem items_nodup {chunks : List Nat} (hnodup : chunks.Nodup) :
    ((w.store.cellsIn chunks).map (·.item)).Nodup := by
  -- Two rows with the same item are both its seat, and it has one.
  have hunique : ∀ c r c' r' cell cell', w.store.cell? c r = some cell →
      w.store.cell? c' r' = some cell' → cell.item = cell'.item → c = c' ∧ r = r' := by
    intro c r c' r' cell cell' hcell hcell' heq
    obtain ⟨-, -, a, hs⟩ := h.seated c r cell hcell
    obtain ⟨-, -, a', hs'⟩ := h.seated c' r' cell' hcell'
    rw [heq] at hs
    obtain ⟨-, hc, hr, -⟩ := h.seat_unique hs hs'
    exact ⟨hc, hr⟩
  rw [List.nodup_iff_pairwise_ne, List.pairwise_map, RowStore.cellsIn, List.pairwise_flatMap]
  constructor
  · intro chunk _
    rw [List.pairwise_filterMap, List.pairwise_iff_getElem]
    intro i j hi hj hlt cell hcell cell' hcell' heq
    have hrow : ∀ r (hr : r < (w.store.rows chunk).toList.length) (c : Cell V),
        id (w.store.rows chunk).toList[r] = some c → w.store.cell? chunk r = some c := by
      intro r hr c hc
      have hr' : r < (w.store.rows chunk).size := by simpa using hr
      rw [RowStore.cell?_eq, Array.getElem?_eq_getElem hr']
      simpa using hc
    have := (hunique _ _ _ _ _ _ (hrow i hi cell hcell) (hrow j hj cell' hcell') heq).2
    omega
  · refine List.Pairwise.imp ?_ hnodup
    intro chunk chunk' hne cell hcell cell' hcell' heq
    obtain ⟨row, hrow⟩ := RowStore.mem_cells_of_chunk.mp hcell
    obtain ⟨row', hrow'⟩ := RowStore.mem_cells_of_chunk.mp hcell'
    exact hne (hunique _ _ _ _ _ _ hrow hrow' heq).1

/-- A listed row is what its item has. -/
theorem has_of_mem_cellsIn {chunks : List Nat} {cell : Cell V}
    (hcell : cell ∈ w.store.cellsIn chunks) : ∃ a, w.Has cell.item a cell.values := by
  obtain ⟨chunk, -, row, hrow⟩ := RowStore.mem_cellsIn.mp hcell
  obtain ⟨-, -, a, hs⟩ := h.seated chunk row cell hrow
  exact ⟨a, chunk, row, hs⟩

/-- A list of chunks that misses no item has exactly the items that live. -/
theorem items_perm_living {chunks : List Nat} (hnodup : chunks.Nodup)
    (hall : ∀ chunk row cell, w.store.cell? chunk row = some cell → chunk ∈ chunks) :
    ((w.store.cellsIn chunks).map (·.item)).Perm w.living := by
  -- Neither list has an item twice, so it is enough that they have the same.
  rw [List.perm_ext_iff_of_nodup (items_nodup h hnodup) w.living_nodup]
  intro item
  rw [mem_living, List.mem_map]
  constructor
  · rintro ⟨cell, hcell, rfl⟩
    obtain ⟨a, hhas⟩ := has_of_mem_cellsIn h hcell
    exact (h.lives_of_has hhas).1
  · intro hlives
    obtain ⟨a, values, chunk, row, hseat⟩ := h.lives item hlives List.not_mem_nil
    refine ⟨⟨item, values⟩, ?_, rfl⟩
    exact RowStore.mem_cellsIn.mpr ⟨chunk, hall _ _ _ hseat.cell, row, hseat.cell⟩

theorem chunks_nodup : w.chunks.Nodup := by
  rw [chunks, List.nodup_iff_pairwise_ne, List.pairwise_flatMap]
  constructor
  · intro a _
    exact (h.store.ascending a.partition).imp Nat.ne_of_lt
  · refine (Catalog.partitions_distinct h.catalog).imp ?_
    intro a a' hne chunk hc chunk' hc' heq
    subst heq
    exact hne (h.store.chain_disjoint _ _ _ hc hc')

/-- Every row that holds an item is in a chunk of an archetype. -/
theorem mem_chunks_of_cell {chunk row : Nat} {cell : Cell V}
    (hcell : w.store.cell? chunk row = some cell) : chunk ∈ w.chunks := by
  obtain ⟨-, -, a, hs⟩ := h.seated chunk row cell hcell
  have ha := (h.archetype_of_has ⟨chunk, row, hs⟩).1
  rw [chunks, List.mem_flatMap]
  exact ⟨a, (Catalog.mem_archetypes h.catalog).mpr ha, hs.mem_chain⟩

/-- The entities that are counted are those that live. -/
theorem entityCount_eq : w.entityCount = w.living.length := by
  have hcount : w.entityCount = (w.chunks.map w.store.fill).foldr (· + ·) 0 := by
    unfold entityCount Catalog.sizeOf RowStore.partitionSize chunks
    -- Counting archetype after archetype is counting chunk after chunk.
    simp only [← List.sum_eq_foldr]
    induction w.catalog.archetypes with
    | nil => rfl
    | cons a rest ih =>
      rw [List.map_cons, List.sum_cons, List.flatMap_cons, List.map_append, List.sum_append, ih]
      rfl
  rw [hcount, ← RowStore.length_cellsIn h.dense,
    ← (items_perm_living h (chunks_nodup h) fun _ _ _ => mem_chunks_of_cell h).length_eq,
    List.length_map]

end World

end ArchetypeStore

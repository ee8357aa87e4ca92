import ArchetypeStore.Proofs.Catalog.Find
import ArchetypeStore.Proofs.Sample
import ArchetypeStore.Proofs.View.Shape
import ArchetypeStore.Proofs.View.Walk
import ArchetypeStore.Proofs.World.Census
import ArchetypeStore.Proofs.World.Runs

/-! # Queries are exact

  A query shows each live entity that has every component type asked for, once, with the
  values that it has and in the shape of the query. The archetypes of these entities are
  found through links, each row of their chunks holds one of the entities, and the slots
  of the types are the same in every row.
-/

namespace ArchetypeStore

variable {T V : Type} [DecidableEq T] [ComponentType T]

namespace World

variable {w : World T V}

/-! ### The parts of a view -/

/-- Each archetype with every type asked for is a part, with the slots of these types. -/
theorem mem_parts (h : w.Sound) {query : Shape T} (hne : query.leaves ≠ []) {part : ViewPart T} :
    part ∈ (w.select query).parts ↔
      w.catalog.archetype? part.archetype.key = some part.archetype ∧
        query.traverse? (part.archetype.slot? w.registry) = some part.slots := by
  unfold select View.ofArchetypes
  rw [List.mem_filterMap]
  constructor
  · rintro ⟨a, ha, hpart⟩
    obtain ⟨slots, hslots, rfl⟩ := Option.map_eq_some_iff.mp hpart
    exact ⟨((Catalog.mem_findArchetypes h.catalog hne).mp ha).1, hslots⟩
  · rintro ⟨ha, hslots⟩
    refine ⟨part.archetype, (Catalog.mem_findArchetypes h.catalog hne).mpr ⟨ha, ?_⟩, ?_⟩
    · intro t ht
      have hsome := (Shape.traverse?_isSome _ query).mp (Option.isSome_of_eq_some hslots) t ht
      rw [← (h.catalog.archetype_wf ha).1.contains_iff h.catalog.registry]
      exact hsome
    · rw [hslots]
      rfl

/-- The chunks that a query walks. -/
def walked (w : World T V) (query : Shape T) : List Nat :=
  ((w.select query).tasks w.store).map (·.2)

theorem walked_nodup (h : w.Sound) (query : Shape T) : (w.walked query).Nodup := by
  have hparts : (w.select query).parts.Pairwise fun part part' =>
      part.archetype.partition ≠ part'.archetype.partition := by
    unfold select View.ofArchetypes
    rw [List.pairwise_filterMap]
    refine (Catalog.findArchetypes_distinct h.catalog query.leaves).imp ?_
    rintro a a' hne part hpart part' hpart'
    obtain ⟨slots, -, rfl⟩ := Option.map_eq_some_iff.mp hpart
    obtain ⟨slots', -, rfl⟩ := Option.map_eq_some_iff.mp hpart'
    exact hne
  unfold walked View.tasks
  rw [List.map_flatMap, List.nodup_iff_pairwise_ne, List.pairwise_flatMap]
  simp only [List.map_map]
  constructor
  · intro part _
    have hsame : (fun task : ViewPart T × Nat => task.2) ∘ (fun chunk => (part, chunk)) = id := rfl
    rw [hsame, List.map_id]
    exact (h.store.ascending part.archetype.partition).imp Nat.ne_of_lt
  -- Chunks of different parts lie in different chains.
  · refine hparts.imp ?_
    intro part part' hne chunk hc chunk' hc' heq
    simp only [List.mem_map, Function.comp_apply, exists_eq_right] at hc hc'
    subst heq
    exact hne (h.store.chain_disjoint _ _ _ hc hc')

/-! ### The hit that a row makes -/

/-- Values read by slot are the values looked up by type. -/
theorem lookup_of_slot (h : w.Sound) {item : Nat} {a : Archetype T} {values : List V}
    (hhas : w.Has item a values) (t : T) :
    (a.slot? w.registry t).bind (values[·]?) = (a.types.zip values).lookup t := by
  by_cases ht : t ∈ a.types
  · obtain ⟨slot, value, hslot, -, hvalue, hlookup⟩ := value_of_mem h hhas ht
    rw [hslot, hlookup]
    exact hvalue
  · rw [slot?_of_absent h hhas ht, lookup_of_absent h hhas ht]
    rfl

/-- A row of a chunk that is walked is the seat of its item, and makes a hit with the
components of the item. -/
theorem hit_of_cell (h : w.Sound) {query : Shape T} (hne : query.leaves ≠ [])
    {part : ViewPart T} (hpart : part ∈ (w.select query).parts) {chunk row : Nat}
    (hc : chunk ∈ w.store.chain part.archetype.partition) {cell : Cell V}
    (hcell : w.store.cell? chunk row = some cell) :
    w.Seat cell.item part.archetype chunk row cell.values ∧ ∃ components,
      View.hit? part cell = some ⟨part.archetype.key, cell.item, components⟩ ∧
        query.traverse? ((part.archetype.types.zip cell.values).lookup ·) = some components := by
  obtain ⟨hpartition, hslots⟩ := (mem_parts h hne).mp hpart
  obtain ⟨-, -, a, hseat⟩ := h.seated chunk row cell hcell
  have ha := (h.archetype_of_has ⟨chunk, row, hseat⟩).1
  -- The chunk lies in one chain, and the partition belongs to one archetype.
  have hkey : a.key = part.archetype.key :=
    h.catalog.partitions _ _ _ _ ha hpartition (h.store.chain_disjoint _ _ _ hseat.mem_chain hc)
  rw [hkey, hpartition] at ha
  cases ha
  refine ⟨hseat, ?_⟩
  have hlookup : query.traverse? ((part.archetype.types.zip cell.values).lookup ·) =
      part.slots.traverse? (cell.values[·]?) := by
    rw [← Shape.traverse?_congr query fun t _ =>
      lookup_of_slot h ⟨chunk, row, hseat⟩ t, ← Shape.traverse?_bind, hslots]
    rfl
  have hall :
      (query.traverse? ((part.archetype.types.zip cell.values).lookup ·)).isSome = true := by
    rw [Shape.traverse?_isSome]
    intro t ht
    have hslot := (Shape.traverse?_isSome _ query).mp (Option.isSome_of_eq_some hslots) t ht
    have hmem : t ∈ part.archetype.types :=
      ((h.catalog.archetype_wf hpartition).1.contains_iff h.catalog.registry).mp hslot
    obtain ⟨-, value, -, -, -, hvalue⟩ := value_of_mem h ⟨chunk, row, hseat⟩ hmem
    rw [hvalue]
    rfl
  obtain ⟨components, hcomponents⟩ := Option.isSome_iff_exists.mp hall
  refine ⟨components, ?_, hcomponents⟩
  unfold View.hit?
  rw [← hlookup, hcomponents]
  rfl

/-- A hit is made by one of the rows that are walked. -/
theorem cell_of_hit (h : w.Sound) {query : Shape T} (hne : query.leaves ≠ []) {hit : Hit V}
    (hhit : hit ∈ (w.select query).hits w.store) :
    ∃ a chunk row values, w.Seat hit.item a chunk row values ∧ hit.key = a.key ∧
      query.traverse? ((a.types.zip values).lookup ·) = some hit.components := by
  unfold View.hits at hhit
  obtain ⟨⟨part, chunk⟩, htask, hhit⟩ := List.mem_flatMap.mp hhit
  obtain ⟨part', hpart, hchunk⟩ := List.mem_flatMap.mp htask
  obtain ⟨chunk', hc, heq⟩ := List.mem_map.mp hchunk
  cases heq
  rw [View.taskHits_eq, List.mem_filterMap] at hhit
  obtain ⟨slot, hslot, hmade⟩ := hhit
  obtain ⟨cell, rfl, hcellHit⟩ := Option.bind_eq_some_iff.mp hmade
  obtain ⟨row, hcell⟩ := RowStore.mem_cells_of_chunk.mp
    (List.mem_filterMap.mpr ⟨some cell, hslot, rfl⟩)
  obtain ⟨hseat, components, hhit, hcomponents⟩ := hit_of_cell h hne hpart hc hcell
  rw [hhit] at hcellHit
  cases hcellHit
  exact ⟨_, chunk, row, _, hseat, rfl, hcomponents⟩

/-- The items that are shown are those of the rows that are walked, in their order. -/
theorem items_of_hits (h : w.Sound) {query : Shape T} (hne : query.leaves ≠ []) :
    ((w.select query).hits w.store).map (·.item) =
      (w.store.cellsIn (w.walked query)).map (·.item) := by
  unfold View.hits RowStore.cellsIn walked
  rw [List.flatMap_map, List.map_flatMap, List.map_flatMap, List.flatMap_def, List.flatMap_def]
  refine congrArg List.flatten (List.map_congr_left ?_)
  rintro ⟨part, chunk⟩ htask
  obtain ⟨part', hpart, hchunk⟩ := List.mem_flatMap.mp htask
  obtain ⟨chunk', hc, heq⟩ := List.mem_map.mp hchunk
  cases heq
  -- Every row of the chunk that holds an item makes a hit with this item.
  have hrows : ∀ slot ∈ (w.store.rows chunk).toList, ∀ cell, slot = some cell →
      (View.hit? part cell).map (·.item) = some cell.item := by
    rintro slot hslot cell rfl
    obtain ⟨row, hcell⟩ := RowStore.mem_cells_of_chunk.mp
      (List.mem_filterMap.mpr ⟨some cell, hslot, rfl⟩)
    obtain ⟨-, components, hhit, -⟩ := hit_of_cell h hne hpart hc hcell
    rw [hhit]
    rfl
  rw [View.taskHits_eq, List.map_filterMap, List.map_filterMap]
  generalize (w.store.rows chunk).toList = rows at hrows
  induction rows with
  | nil => rfl
  | cons slot rows ih =>
    have hrest := ih fun slot' hslot' => hrows slot' (List.mem_cons_of_mem _ hslot')
    cases slot with
    | none => exact hrest
    | some cell =>
      have hfirst := hrows (some cell) (List.mem_cons_self ..) cell rfl
      simp only [List.filterMap_cons, Option.bind_some, hfirst, id_eq, Option.map_some]
      exact congrArg (cell.item :: ·) hrest

/-! ### Exactness -/

/-- What the hits of a query are to be, and what is to be counted. -/
structure Exact (w : World T V) (query : Shape T) (hits : List (Hit V)) (count : Nat) :
    Prop where
  once : (hits.map (·.item)).Nodup
  /-- Shown is who lives and has every type asked for. -/
  shown : ∀ item, item ∈ hits.map (·.item) ↔
    w.Lives item ∧ ∀ t ∈ query.leaves, w.has ⟨w.number, item⟩ t = true
  /-- The components are what reading the entity finds, type by type. -/
  current : ∀ hit ∈ hits, query.traverse? (w.read? ⟨w.number, hit.item⟩) = some hit.components
  /-- The entity is found in the archetype of the hit, in the row that its id names. -/
  placed : ∀ hit ∈ hits, ∃ a v, a.key = hit.key ∧
    w.locate ⟨w.number, hit.item⟩ = .found a (w.store.idOf hit.item) ∧
      w.store.row a.partition (w.store.idOf hit.item) = .ok v ∧
        v.id = w.store.idOf hit.item ∧ v.cell.map (·.item) = some hit.item
  counted : count = hits.length

/-- The hits of a query are exact in a sound world. -/
theorem hits_exact (h : w.Sound) {query : Shape T} (hne : query.leaves ≠ []) :
    w.Exact query ((w.select query).hits w.store) ((w.select query).size w.store) := by
  have hitems := items_of_hits h hne
  have hnodup := items_nodup h (walked_nodup h query)
  -- Who is shown sits in a row that is walked, and the types asked for have slots there.
  refine ⟨hitems ▸ hnodup, fun item => ?_, fun hit hhit => ?_, fun hit hhit => ?_, ?_⟩
  · rw [hitems, List.mem_map]
    constructor
    · rintro ⟨cell, hcell, rfl⟩
      obtain ⟨chunk, hc, row, hrow⟩ := RowStore.mem_cellsIn.mp hcell
      obtain ⟨⟨part, chunk'⟩, htask, rfl⟩ := List.mem_map.mp hc
      obtain ⟨part', hpart, hchunk⟩ := List.mem_flatMap.mp htask
      obtain ⟨chunk'', hc', heq⟩ := List.mem_map.mp hchunk
      cases heq
      obtain ⟨hseat, -⟩ := hit_of_cell h hne hpart hc' hrow
      refine ⟨(h.lives_of_has ⟨_, row, hseat⟩).1, fun t ht => ?_⟩
      obtain ⟨hpartition, hslots⟩ := (mem_parts h hne).mp hpart
      have hhas : w.Has (Entity.mk w.number cell.item).item part.archetype cell.values :=
        ⟨_, row, hseat⟩
      rw [has_of_has h hhas, decide_eq_true_iff,
        ← (h.catalog.archetype_wf hpartition).1.contains_iff h.catalog.registry]
      exact (Shape.traverse?_isSome _ query).mp (Option.isSome_of_eq_some hslots) t ht
    · rintro ⟨hlives, hall⟩
      obtain ⟨a, values, chunk, row, hseat⟩ := h.lives item hlives List.not_mem_nil
      have hhas : w.Has (Entity.mk w.number item).item a values := ⟨chunk, row, hseat⟩
      obtain ⟨ha, -, hwf, -⟩ := h.archetype_of_has hhas
      -- All types asked for are in the archetype, so it makes a part of the view.
      have hsome : (query.traverse? (a.slot? w.registry)).isSome = true := by
        rw [Shape.traverse?_isSome]
        intro t ht
        have hhas' := hall t ht
        rw [has_of_has h hhas, decide_eq_true_iff] at hhas'
        exact (hwf.contains_iff h.catalog.registry).mpr hhas'
      obtain ⟨slots, hslots⟩ := Option.isSome_iff_exists.mp hsome
      have hpart : (⟨a, slots⟩ : ViewPart T) ∈ (w.select query).parts :=
        (mem_parts h hne).mpr ⟨ha, hslots⟩
      refine ⟨⟨item, values⟩, RowStore.mem_cellsIn.mpr ⟨chunk, ?_, row, hseat.cell⟩, rfl⟩
      refine List.mem_map.mpr ⟨(⟨a, slots⟩, chunk), List.mem_flatMap.mpr ⟨_, hpart, ?_⟩, rfl⟩
      exact List.mem_map_of_mem hseat.mem_chain
  · obtain ⟨a, chunk, row, values, hseat, -, hcomponents⟩ := cell_of_hit h hne hhit
    rw [← hcomponents]
    exact Shape.traverse?_congr query fun t _ =>
      read?_of_has h (e := ⟨w.number, hit.item⟩) rfl ⟨chunk, row, hseat⟩ t
  · obtain ⟨a, chunk, row, values, hseat, hkey, -⟩ := cell_of_hit h hne hhit
    refine ⟨a, w.store.view chunk row, hkey.symm, ?_, ?_, hseat.id.symm, ?_⟩
    · exact locate_of_seat h (e := ⟨w.number, hit.item⟩) rfl hseat
    · exact row_of_seat h (e := ⟨w.number, hit.item⟩) hseat
    · have hcell : (w.store.view chunk row).cell = some ⟨hit.item, values⟩ := hseat.cell
      rw [hcell]
      rfl
  -- Every claimed row makes a hit, so claimed rows may be counted instead.
  · have hsize : (w.select query).size w.store =
        ((w.walked query).map w.store.fill).foldr (· + ·) 0 := by
      unfold View.size walked
      rw [List.map_map]
      rfl
    rw [hsize, ← RowStore.length_cellsIn h.dense]
    have hlength := congrArg List.length hitems
    rw [List.length_map, List.length_map] at hlength
    exact hlength.symm

/-- A query that asks for a component type shows, in every world that operations lead to,
exactly the entities with all the types it asks for. -/
theorem select_exact {number : Nat} {settings : Settings} (h : Reachable number settings w)
    {query : Shape T} (hne : query.leaves ≠ []) :
    w.Exact query ((w.select query).toList w.store) ((w.select query).size w.store) := by
  rw [View.toList_eq_hits]
  exact hits_exact h.sound hne

/-- The first entity leaves, the second one gains a position, and the third one gains a
velocity twice. -/
def mingled : World Sample Nat → World Sample Nat := fun w =>
  let w := (w.spawn [(.position, 0), (.velocity, 1)]).2
  let w := (w.spawn [(.velocity, 2)]).2
  let w := (w.spawn [(.position, 3)]).2
  let w := (w.add ⟨0, 1⟩ .position 4).2
  let w := (w.add ⟨0, 2⟩ .velocity 5).2
  let w := (w.destroy ⟨0, 0⟩).2
  (w.add ⟨0, 2⟩ .velocity 6).2

/-- A query with one type asked for twice. -/
def nested : Shape Sample := .tuple [.leaf .velocity, .tuple [.leaf .position, .leaf .velocity]]

theorem select_exact_mingled : ∃ w : World Sample Nat, Reachable 0 .default (mingled w) ∧
    nested.leaves ≠ [] ∧ (mingled w).Exact nested
      (((mingled w).select nested).toList (mingled w).store)
      (((mingled w).select nested).size (mingled w).store) := by
  have hne : nested.leaves ≠ [] := by simp [nested, Shape.leaves, Shape.leavesOf]
  have hok : (World.create 0 .default : Except StoreError (World Sample Nat)).isOk = true := by
    decide
  cases hcreate : (World.create 0 .default : Except StoreError (World Sample Nat)) with
  | error e =>
    rw [hcreate] at hok
    cases hok
  | ok w =>
    have hreach : Reachable 0 .default (mingled w) :=
      .add _ _ _ (.destroy _ (.add _ _ _ (.add _ _ _ (.spawn _ (.spawn _ (.spawn _
        (.create hcreate)))))))
    exact ⟨w, hreach, hne, select_exact hreach hne⟩

end World

end ArchetypeStore

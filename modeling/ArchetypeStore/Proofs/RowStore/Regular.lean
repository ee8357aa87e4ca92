import ArchetypeStore.Proofs.RowStore.Isolation
import ArchetypeStore.Proofs.RowStore.Orderly

/-! # Regular rows

  A partition is a table: each item in it has one value for each column. This holds as long
  as whoever stores an item fills all columns of its row, and nobody changes the number of
  values later. A partition was also given memory for one chunk when it was made, so there is
  a layout for each of its columns, and when its chain is refused another chunk it is for want
  of memory or of chunk numbers.

  Together with the accounts of slots and the links of chunks, this is what operations on
  rows may rely on.
-/

namespace ArchetypeStore

namespace RowStore

variable {T V : Type} {s s' s'' : RowStore T V} {reserved : List SlotId} {partition : Nat}

/-! ### Tables -/

/-- Each item has one value for each column of its partition. -/
def Tabular (s : RowStore T V) : Prop :=
  ∀ q layout, s.layout? q = some layout → ∀ chunk ∈ s.chain q, ∀ row cell,
    s.cell? chunk row = some cell → cell.values.length = layout.length

/-- The second store has the partitions of the first, with the same columns. -/
structure Retains (s s' : RowStore T V) : Prop where
  format : s'.format = s.format
  layout : ∀ q layout, s.layout? q = some layout → s'.layout? q = some layout

theorem Retains.refl (s : RowStore T V) : Retains s s := ⟨rfl, fun _ _ h => h⟩

theorem Steady.retains (h : Steady s s') : Retains s s' :=
  ⟨h.format, fun q _ hq => (h.layout q).trans hq⟩

/-- An item that was there before has as many values as before, and a new one fills the
columns of its partition. -/
theorem Tabular.steady (h : Tabular s) (hs : Chained s) (hs' : Chained s')
    (hsteady : Steady s s')
    (hcells : ∀ c r cell', s'.cell? c r = some cell' →
      (∃ r₀ cell, s.cell? c r₀ = some cell ∧ cell'.values.length = cell.values.length) ∨
        ∃ p layout, s.layout? p = some layout ∧ c ∈ s'.chain p ∧
          cell'.values.length = layout.length) : Tabular s' := by
  intro q layout hlayout chunk hc row cell' hcell'
  rw [hsteady.layout] at hlayout
  rcases hcells chunk row cell' hcell' with ⟨r₀, cell, hcell, hlen⟩ | ⟨p, layout', hp, hcp, hlen⟩
  · -- The chunk is an old one, so it was in the same chain.
    have hlt := lt_chunkCount_of_lt_fill (lt_fill_of_cell? hcell)
    obtain ⟨p, hcp⟩ := hs.chunk_owned chunk hlt
    obtain rfl := hs'.partition_unique hc (hsteady.mem_chain hcp)
    rw [hlen]
    exact h p layout hlayout chunk hcp r₀ cell hcell
  · obtain rfl := hs'.partition_unique hc hcp
    rw [hlayout] at hp
    cases hp
    exact hlen

variable [ComponentType T]

/-- A chunk that was granted has a layout for each of its columns. -/
theorem laidOut_of_allocateChunk {m : Memory} {capacity : Nat} {layout : List T}
    (h : allocateChunk m capacity layout = .ok ()) :
    ∀ t ∈ layout, ComponentType.LaidOut t capacity := by
  induction layout with
  | nil => exact fun t ht => nomatch ht
  | cons first rest ih =>
    unfold allocateChunk at h
    cases hcolumn : ComponentType.allocateColumn m first capacity with
    | error e =>
      rw [hcolumn] at h
      cases h
    | ok block =>
      rw [hcolumn] at h
      exact List.forall_mem_cons.mpr ⟨ComponentType.laidOut_of_allocateColumn hcolumn, ih h⟩

/-- There is a layout for each column of each partition. -/
def Backed (s : RowStore T V) : Prop :=
  ∀ q layout, s.layout? q = some layout →
    ∀ t ∈ layout, ComponentType.LaidOut t s.format.rowsPerChunk

theorem Backed.steady (h : Backed s) (hsteady : Steady s s') : Backed s' := by
  intro q layout hq
  rw [hsteady.format]
  exact h q layout ((hsteady.layout q).symm.trans hq)

/-- What the operations on rows rely on, for the ids that were issued and have no item yet. -/
structure Regular (s : RowStore T V) (reserved : List SlotId) : Prop
    extends Sound s reserved, Wired s where
  tabular : s.Tabular
  backed : s.Backed

theorem empty_regular {format : IdFormat} (h : format.Valid) :
    Regular (.empty format : RowStore T V) [] :=
  { empty_sound h, empty_wired h with
    tabular := fun _ _ hq => nomatch hq
    backed := fun _ _ hq => nomatch hq }

/-- The columns of a chunk are those of its partition. -/
theorem Wired.layout_of_chunk {T V : Type} {s : RowStore T V} (h : Wired s) {q chunk : Nat}
    (hc : chunk ∈ s.chain q) {c : Chunk T V} (hchunk : s.chunks[chunk]? = some c) :
    s.layout? q = some c.layout := by
  obtain ⟨i, hi⟩ := List.getElem?_of_mem hc
  obtain ⟨layout, hlayout, hbare⟩ := h.linked q i chunk hi
  rw [bare?, hchunk] at hbare
  have heq : c.layout = layout := congrArg Chunk.layout (Option.some.inj hbare)
  rw [hlayout, heq]

/-! ### Operations -/

namespace Regular

/-- A step that keeps slots accounted for and chunks linked, and after which every item still
has all its values. -/
theorem of_steady {reserved' : List SlotId} (h : Regular s reserved) (hsound : Sound s' reserved')
    (hwired : Wired s') (hsteady : Steady s s')
    (hcells : ∀ c r cell', s'.cell? c r = some cell' →
      (∃ r₀ cell, s.cell? c r₀ = some cell ∧ cell'.values.length = cell.values.length) ∨
        ∃ p layout, s.layout? p = some layout ∧ c ∈ s'.chain p ∧
          cell'.values.length = layout.length) : Regular s' reserved' :=
  { hsound, hwired with
    tabular := h.tabular.steady h.toChained hsound.toChained hsteady hcells
    backed := h.backed.steady hsteady }

/-- Where each row holds what it held, the items have the values they had. -/
theorem of_cells {reserved' : List SlotId} (h : Regular s reserved) (hsound : Sound s' reserved')
    (hwired : Wired s') (hsteady : Steady s s')
    (hcell : ∀ c r, s'.cell? c r = s.cell? c r) : Regular s' reserved' :=
  h.of_steady hsound hwired hsteady fun c r cell' hcell' =>
    .inl ⟨r, cell', hcell c r ▸ hcell', rfl⟩

/-- A store with other id words is as regular. -/
theorem withIds (h : Regular s reserved) (ids : Array SlotId) :
    Regular { s with ids } reserved := by
  have hquiet := Quiet.withIds s ids
  exact h.of_cells
    (h.congr hquiet.toSameChains (fun _ => rfl) (fun _ _ => rfl) (fun _ => rfl) h.room)
    (h.toWired.quiet hquiet) hquiet.toSameChains.steady fun _ _ => rfl

/-- Rows do not depend on how memory answers. -/
theorem withMemory (h : Regular s reserved) (memory : Memory) :
    Regular (s.withMemory memory) reserved :=
  h.of_cells (h.toSound.withMemory memory) (h.toWired.quiet (.withMemory s memory))
    (SameChains.withMemory s memory).steady fun _ _ => rfl

/-- The item of a row gets other values, as many as before. -/
theorem setCell (h : Regular s reserved) {chunk row : Nat} {old new : Cell V}
    (hcell : s.cell? chunk row = some old) (hlen : new.values.length = old.values.length) :
    Regular (s.setCell chunk row (some new)) reserved := by
  have hfill := lt_fill_of_cell? hcell
  have hquiet := Quiet.setCell s chunk row (some new)
  have hcells := cell?_setCell s hfill (some new)
  refine h.of_steady (h.congr hquiet.toSameChains (fill_setCell s hfill _) (fun c r => ?_)
    (fun _ => rfl) h.room) (h.toWired.quiet hquiet) hquiet.toSameChains.steady ?_
  · rw [hcells]
    split
    · rename_i heq
      rw [heq.1, heq.2, hcell]
      rfl
    · rfl
  · intro c r cell' hcell'
    rw [hcells] at hcell'
    split at hcell'
    · rename_i heq
      cases hcell'
      exact .inl ⟨row, old, by rw [heq.1]; exact hcell, hlen⟩
    · exact .inl ⟨r, cell', hcell', rfl⟩

theorem newPartition (h : Regular s reserved) (layout : List T) :
    Regular (s.newPartition layout).2 reserved ∧ Retains s (s.newPartition layout).2 := by
  have hwired := (newPartition_settles h.toWired layout).wired
  cases hnew : s.newPartition layout with
  | mk answer s' =>
    rw [hnew] at hwired
    cases answer with
    | error e =>
      obtain ⟨rfl, -⟩ := newPartition_error hnew
      exact ⟨h, .refl _⟩
    | ok partition =>
      obtain ⟨hsize, halloc, hadds, -⟩ := newPartition_ok hnew
      have hlayout := layout?_newPartition hnew
      have hchain := chain_newPartition hnew
      have hunused : s.layout? partition = none := by
        rw [layout?, hsize, Array.getElem?_eq_none (Nat.le_refl _)]
        rfl
      refine ⟨{ newPartition_sound hnew h.toSound, hwired with tabular := ?_, backed := ?_ },
        hadds.format, fun q layout' hq => ?_⟩
      · intro q layout' hq chunk hc row cell hcell
        rw [hadds.cell?] at hcell
        rw [hlayout] at hq
        rw [hchain] at hc
        split at hc
        · -- The first chunk of the new partition holds no item.
          rw [List.mem_singleton] at hc
          subst hc
          exact absurd (lt_chunkCount_of_lt_fill (lt_fill_of_cell? hcell)) (Nat.lt_irrefl _)
        · rename_i hne
          rw [if_neg hne] at hq
          exact h.tabular q layout' hq chunk hc row cell hcell
      · intro q layout' hq
        rw [hadds.format]
        rw [hlayout] at hq
        split at hq
        · cases hq
          exact laidOut_of_allocateChunk halloc
        · exact h.backed q layout' hq
      · -- A partition that had a layout before is not the new one.
        rw [hlayout, if_neg, hq]
        rintro rfl
        rw [hunused] at hq
        cases hq

theorem issue_ok (h : Regular s reserved) {id : SlotId}
    (hissue : s.issue partition = (.ok id, s')) :
    Regular s' (id :: reserved) ∧ Retains s s' := by
  have hwired := (issue_settles h.toWired partition).wired
  rw [hissue] at hwired
  obtain ⟨_, _, -, hissued, hsound⟩ := RowStore.issue_ok h.toSound hissue
  exact ⟨h.of_cells hsound hwired hissued.steady hissued.cell, hissued.steady.retains⟩

omit [ComponentType T] in
/-- A chunk in a chain belongs to a partition. -/
theorem exists_layout {q chunk : Nat} (hc : chunk ∈ s.chain q) :
    ∃ layout, s.layout? q = some layout := by
  cases hp : s.partitions[q]? with
  | none =>
    rw [chain_of_none hp] at hc
    cases hc
  | some p => exact ⟨p.layout, by rw [layout?, hp]; rfl⟩

/-- An item was stored with a value for each column. -/
theorem of_stored {reserved' : List SlotId} (h : Regular s reserved) (hsound : Sound s' reserved')
    (hwired : Wired s') {chunk row item : Nat} {values : List V}
    (hstored : Stored s s' partition chunk row item values)
    (hfills : ∀ layout, s.layout? partition = some layout → values.length = layout.length) :
    Regular s' reserved' ∧ Retains s s' := by
  obtain ⟨layout, hlayout⟩ := exists_layout hstored.mem_chain
  rw [hstored.steady.layout] at hlayout
  refine ⟨h.of_steady hsound hwired hstored.steady fun c r cell' hcell' => ?_,
    hstored.steady.retains⟩
  rw [hstored.cell] at hcell'
  split at hcell'
  · rename_i heq
    cases hcell'
    exact .inr ⟨partition, layout, hlayout, heq.1 ▸ hstored.mem_chain, hfills layout hlayout⟩
  · exact .inl ⟨r, cell', hcell', rfl⟩

/-- An item goes into the row of an id that is out. -/
theorem occupy_ok (h : Regular s reserved) {id : SlotId} (hid : id ∈ reserved) {item : Nat}
    {values : List V}
    (hfills : ∀ layout, s.layout? partition = some layout → values.length = layout.length)
    (hoccupy : s.occupy partition id item values = (.ok (), s')) :
    Regular s' (reserved.erase id) ∧ Retains s s' := by
  have hquiet := occupy_quiet s partition id item values
  rw [hoccupy] at hquiet
  have hpool : (⟨s, reserved⟩ : Pool T V).store.Sound (⟨s, reserved⟩ : Pool T V).reserved :=
    h.toSound
  rcases Pool.occupy_cases hpool hid partition item values with
    hrefused | ⟨chunk, row, store, -, -, -, hok, hsound, hstored⟩
  · exact nomatch hoccupy.symm.trans hrefused
  · cases hoccupy.symm.trans hok
    exact h.of_stored hsound (h.toWired.quiet hquiet) hstored hfills

theorem insert (h : Regular s reserved) (item : Nat) {values : List V}
    (hfills : ∀ layout, s.layout? partition = some layout → values.length = layout.length) :
    Regular (s.insert partition item values).2 reserved ∧
      Retains s (s.insert partition item values).2 := by
  have hwired := (insert_settles h.toWired partition item values).wired
  cases hinsert : s.insert partition item values with
  | mk answer s' =>
    rw [hinsert] at hwired
    cases answer with
    | error e =>
      obtain rfl := insert_stays h.toSound hinsert
      exact ⟨h, .refl _⟩
    | ok id =>
      obtain ⟨_, _, -, -, hsound, hstored, -⟩ := insert_ok h.toSound hinsert
      exact h.of_stored hsound hwired hstored hfills

/-- A removal takes items out of rows, or moves them within a chunk. -/
theorem evict {α : Type} (h : Regular s reserved) (partition : Nat) (id : SlotId)
    (accept : RowView V → Except StoreError α) :
    Regular (s.evict partition id accept).2 reserved ∧
      Retains s (s.evict partition id accept).2 := by
  have hquiet := evict_quiet h.toChained partition id accept
  cases hevict : s.evict partition id accept with
  | mk answer s' =>
    rw [hevict] at hquiet
    cases answer with
    | error e =>
      obtain ⟨halike, hsound, -⟩ := evict_error h.toSound hevict
      exact ⟨h.of_cells hsound (h.toWired.quiet hquiet) halike.steady halike.cell?,
        halike.steady.retains⟩
    | ok evicted =>
      obtain ⟨chunk, row, given, cell, -, -, -, -, -, -, hsound, hvacated, -⟩ :=
        evict_ok h.toSound hevict
      refine ⟨h.of_steady hsound (h.toWired.quiet hquiet) hvacated.same.steady
        fun c r cell' hcell' => ?_, hvacated.same.steady.retains⟩
      -- What a row holds now it held before, or the row that gave its item to the gap did.
      left
      rw [hvacated.cell] at hcell'
      split at hcell'
      · cases hcell'
      · split at hcell'
        · rename_i heq
          exact ⟨given, cell', by rw [heq.1]; exact hcell', rfl⟩
        · exact ⟨r, cell', hcell', rfl⟩

theorem rewrite (h : Regular s reserved) (partition : Nat) (id : SlotId) {f : List V → List V}
    (hf : ∀ values, (f values).length = values.length) :
    Regular (s.rewrite partition id f).2 reserved := by
  unfold RowStore.rewrite
  split
  · exact h
  · rename_i v hrow
    split
    · exact h
    · rename_i cell hcell
      have hold : s.cell? v.chunk v.row = some cell := (of_row hrow).2.trans hcell
      exact h.setCell hold (hf cell.values)

end Regular

/-! ### Lasting properties -/

/-- What lasts is not lost when rows are worked on with care: an item is stored with a value
for each column, and no values are added to it or dropped later. -/
structure Lasting (P : RowStore T V → Prop) : Prop where
  withMemory : ∀ {s : RowStore T V}, P s → ∀ memory : Memory, P (s.withMemory memory)
  withIds : ∀ {s : RowStore T V}, P s → ∀ ids : Array SlotId, P { s with ids }
  setCell : ∀ {s : RowStore T V} {chunk row : Nat} {old new : Cell V}, P s →
    s.cell? chunk row = some old → new.values.length = old.values.length →
      P (s.setCell chunk row (some new))
  newPartition : ∀ {s : RowStore T V}, P s → ∀ layout : List T,
    P (s.newPartition layout).2 ∧ Retains s (s.newPartition layout).2
  insert : ∀ {s : RowStore T V} {partition : Nat} {values : List V}, P s → ∀ item : Nat,
    (∀ layout, s.layout? partition = some layout → values.length = layout.length) →
      P (s.insert partition item values).2 ∧ Retains s (s.insert partition item values).2
  evict : ∀ {s : RowStore T V} {α : Type}, P s → ∀ partition id
    (accept : RowView V → Except StoreError α),
      P (s.evict partition id accept).2 ∧ Retains s (s.evict partition id accept).2

theorem regular_lasting (reserved : List SlotId) :
    Lasting fun s : RowStore T V => s.Regular reserved where
  withMemory h memory := h.withMemory memory
  withIds h ids := h.withIds ids
  setCell h hcell hlen := h.setCell hcell hlen
  newPartition h layout := h.newPartition layout
  insert h item hfills := h.insert item hfills
  evict h partition id accept := h.evict partition id accept

omit [ComponentType T] in
/-- A call that settles takes no partition away, and changes no columns. -/
theorem Settles.retains {β : Type} {outcome : Except StoreError β × RowStore T V}
    (h : Settles s outcome) : Retains s outcome.2 := by
  rcases h.registry with hsame | ⟨-, q, columns, hgrown⟩
  · exact hsame.steady.retains
  · refine ⟨hgrown.format, fun q' layout hlayout => ?_⟩
    rw [hgrown.layout]
    split
    · -- A partition that gets another chunk has its columns from before.
      rename_i heq
      rw [heq] at hlayout
      rw [← hlayout, hgrown.layout_before.resolve_left (by rw [hlayout]; nofun)]
    · exact hlayout

/-- The links of chunks last, whatever the rows hold. -/
theorem wired_lasting : Lasting (Wired : RowStore T V → Prop) where
  withMemory h memory := h.quiet (.withMemory _ memory)
  withIds h ids := h.quiet (.withIds _ ids)
  setCell h _ _ := h.quiet (.setCell ..)
  newPartition h layout :=
    have hsettles := newPartition_settles h layout
    ⟨hsettles.wired, hsettles.retains⟩
  insert h item _ :=
    have hsettles := insert_settles h _ item _
    ⟨hsettles.wired, hsettles.retains⟩
  evict h partition id accept :=
    have hquiet := evict_quiet h.toChained partition id accept
    ⟨h.quiet hquiet, hquiet.toSameChains.steady.retains⟩

/-- What is handed in has one value for each column, and no later change adds or drops any. -/
def Fills (s : RowStore T V) : Call T V → Prop
  | .occupy partition _ _ values | .insert partition _ values =>
    ∀ layout, s.layout? partition = some layout → values.length = layout.length
  | .rewrite _ _ f => ∀ values, (f values).length = values.length
  | _ => True

end RowStore

namespace Pool

variable {T V : Type} [ComponentType T]

/-- Regular rows stay regular under every call that registers ids only while they are out and
fills the columns of its row. -/
theorem next_regular {pool : Pool T V} (h : pool.store.Regular pool.reserved)
    {call : RowStore.Call T V} (hallows : pool.Allows call) (hfills : pool.store.Fills call) :
    (pool.next call).store.Regular (pool.next call).reserved ∧
      pool.store.Retains (pool.next call).store := by
  cases call with
  | newPartition layout => exact h.newPartition layout
  | newItem => exact ⟨h.withIds _, rfl, fun _ _ hq => hq⟩
  | setId item id => exact ⟨h.withIds _, rfl, fun _ _ hq => hq⟩
  | issue partition =>
    cases hissue : pool.store.issue partition with
    | mk answer store =>
      cases answer with
      | error e =>
        obtain rfl := RowStore.issue_stays h.toSound hissue
        rw [next_issue_error hissue]
        exact ⟨h, .refl _⟩
      | ok id =>
        rw [next_issue hissue]
        exact h.issue_ok hissue
  | occupy partition id item values =>
    cases hoccupy : pool.store.occupy partition id item values with
    | mk answer store =>
      cases answer with
      | error e =>
        rw [next_occupy_error hoccupy]
        rcases occupy_cases h.toSound hallows partition item values with hrefused |
          ⟨_, _, _, -, -, -, hok, -⟩
        · cases hoccupy.symm.trans hrefused
          exact ⟨h, .refl _⟩
        · cases hoccupy.symm.trans hok
      | ok =>
        rw [next_occupy hoccupy]
        exact h.occupy_ok hallows hfills hoccupy
  | insert partition item values => exact h.insert item hfills
  | evict partition id accept => exact h.evict partition id accept
  | row partition id => exact ⟨h, .refl _⟩
  | rewrite partition id f =>
    exact ⟨h.rewrite partition id hfills,
      (RowStore.rewrite_quiet pool.store partition id f).toSameChains.steady.retains⟩
  | memory m => exact ⟨h.withMemory m, rfl, fun _ _ hq => hq⟩

end Pool

end ArchetypeStore

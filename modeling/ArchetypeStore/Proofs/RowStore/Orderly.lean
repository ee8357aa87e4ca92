import ArchetypeStore.Proofs.RowStore.Conservation
import ArchetypeStore.Proofs.RowStore.Registry

/-! # Orderly runs

  A run of calls is orderly when ids are registered only while they are out. Everything
  else may be called with any argument. The rows of a pool stay in order along an orderly
  run.
-/

namespace ArchetypeStore

/-! ### Rewriting -/

/-- A row that is rewritten holds the same item, with other values. -/
theorem RowStore.rewrite_sound {T V : Type} {s : RowStore T V} {reserved : List SlotId}
    (h : s.Sound reserved) (partition : Nat) (id : SlotId) (f : List V → List V) :
    (s.rewrite partition id f).2.Sound reserved := by
  unfold rewrite
  split
  · exact h
  · rename_i v hrow
    split
    · exact h
    · rename_i cell hcell
      have hold : s.cell? v.chunk v.row = some cell := (of_row hrow).2.trans hcell
      have hfill := lt_fill_of_cell? hold
      have hsame : SameChains s
          (s.setCell v.chunk v.row (some ⟨cell.item, f cell.values⟩)) := .modifyRows s _ _
      refine h.congr hsame (fill_setCell s hfill _) ?_ (fun _ => rfl) h.room
      intro c r
      rw [cell?_setCell s hfill]
      split
      · rename_i heq
        rw [heq.1, heq.2, hold]
        rfl
      · rfl

namespace Pool

variable {T V : Type} [ComponentType T]

/-! ### Runs -/

/-- The ids that are out after a call: an issue hands one out, a registration takes one back. -/
def outstanding (reserved : List SlotId) :
    RowStore.Call T V → Except StoreError (RowStore.Answer V) → List SlotId
  | .issue _, .ok (.id id) => id :: reserved
  | .occupy _ id _ _, .ok _ => reserved.erase id
  | _, _ => reserved

/-- What a call leaves of a pool. -/
def next (pool : Pool T V) (call : RowStore.Call T V) : Pool T V :=
  ⟨(pool.store.perform call).2,
    outstanding pool.reserved call (pool.store.perform call).1⟩

/-- Only ids that are out are registered. -/
def Allows (pool : Pool T V) : RowStore.Call T V → Prop
  | .occupy _ id _ _ => id ∈ pool.reserved
  | _ => True

/-- Each call is allowed when its turn comes. -/
def Orderly (pool : Pool T V) : List (RowStore.Call T V) → Prop
  | [] => True
  | call :: rest => pool.Allows call ∧ (pool.next call).Orderly rest

/-- What is left after calls, the first one first. -/
def after (pool : Pool T V) (calls : List (RowStore.Call T V)) : Pool T V :=
  calls.foldl next pool

theorem next_issue {pool : Pool T V} {partition : Nat} {id : SlotId} {store : RowStore T V}
    (hissue : pool.store.issue partition = (.ok id, store)) :
    pool.next (.issue partition) = ⟨store, id :: pool.reserved⟩ := by
  simp only [next, RowStore.perform, hissue, RowStore.answering, Except.map, outstanding]

theorem next_issue_error {pool : Pool T V} {partition : Nat} {e : StoreError}
    {store : RowStore T V} (hissue : pool.store.issue partition = (.error e, store)) :
    pool.next (.issue partition) = ⟨store, pool.reserved⟩ := by
  simp only [next, RowStore.perform, hissue, RowStore.answering, Except.map, outstanding]

theorem next_occupy {pool : Pool T V} {partition : Nat} {id : SlotId} {item : Nat}
    {values : List V} {store : RowStore T V}
    (hoccupy : pool.store.occupy partition id item values = (.ok (), store)) :
    pool.next (.occupy partition id item values) = ⟨store, pool.reserved.erase id⟩ := by
  simp only [next, RowStore.perform, hoccupy, RowStore.answering, Except.map, outstanding]

theorem next_occupy_error {pool : Pool T V} {partition : Nat} {id : SlotId} {item : Nat}
    {values : List V} {e : StoreError} {store : RowStore T V}
    (hoccupy : pool.store.occupy partition id item values = (.error e, store)) :
    pool.next (.occupy partition id item values) = ⟨store, pool.reserved⟩ := by
  simp only [next, RowStore.perform, hoccupy, RowStore.answering, Except.map, outstanding]

/-- A call that is allowed keeps the rows in order and takes no slot away. -/
theorem next_kept {pool : Pool T V} (h : pool.store.Sound pool.reserved)
    {call : RowStore.Call T V} (hallows : pool.Allows call) : Kept pool (pool.next call) := by
  cases call with
  | newPartition layout => exact kept_newPartition h layout
  | newItem => exact Step.kept h (.newItem pool)
  | setId item id => exact Step.kept h (.setId pool item id)
  | issue partition =>
    cases hissue : pool.store.issue partition with
    | mk answer store =>
      cases answer with
      | error e =>
        rw [next_issue_error hissue]
        exact kept_notIssued h hissue
      | ok id =>
        rw [next_issue hissue]
        exact kept_issue h hissue
  | occupy partition id item values =>
    cases hoccupy : pool.store.occupy partition id item values with
    | mk answer store =>
      cases answer with
      | error e =>
        rw [next_occupy_error hoccupy]
        exact kept_notRegistered h hallows hoccupy
      | ok =>
        rw [next_occupy hoccupy]
        exact kept_registered h hallows hoccupy
  | insert partition item values => exact kept_insert h partition item values
  | evict partition id accept => exact kept_evict h partition id accept
  | row partition id => exact .of_steady h (.refl _)
  | rewrite partition id f =>
    exact .of_steady (RowStore.rewrite_sound h partition id f)
      (RowStore.rewrite_quiet pool.store partition id f).steady
  | memory m => exact Step.kept h (.memory pool m)

theorem Orderly.sound {pool : Pool T V} (h : pool.store.Sound pool.reserved)
    {calls : List (RowStore.Call T V)} (horderly : pool.Orderly calls) :
    (pool.after calls).store.Sound (pool.after calls).reserved := by
  induction calls generalizing pool with
  | nil => exact h
  | cons call rest ih => exact ih (next_kept h horderly.1).sound horderly.2

/-- A pool without chunks. -/
def empty (format : IdFormat) : Pool T V := ⟨.empty format, []⟩

/-- Orderly calls keep the rows of a pool in order. -/
theorem Orderly.sound_of_empty {rowBits : Nat} {limit : Option Nat} {format : IdFormat}
    (hformat : IdFormat.create rowBits limit = .ok format) {calls : List (RowStore.Call T V)}
    (horderly : (Pool.empty format).Orderly calls) :
    ((Pool.empty format).after calls).store.Sound ((Pool.empty format).after calls).reserved :=
  horderly.sound (RowStore.empty_sound (IdFormat.create_valid hformat))

end Pool

end ArchetypeStore

import ArchetypeStore.RowStore.Issue
import ArchetypeStore.RowStore.Removal

/-! # Calls of a row store

  Everything that may be asked of a row store and of its partitions, as one type. A call
  may name any partition, any id and any item, and a check may answer anything, so a list
  of calls is an interleaving of what any number of partitions are used for. Between two
  calls memory may come to answer in any other way.
-/

namespace ArchetypeStore.RowStore

variable {T V : Type}

/-- Change the values in the row of an id. An empty row has none and stays empty. -/
def rewrite (s : RowStore T V) (partition : Nat) (id : SlotId) (f : List V → List V) :
    Except StoreError (RowView V) × RowStore T V :=
  match s.row partition id with
  | .error e => (.error e, s)
  | .ok v =>
    match v.cell with
    | none => (.ok v, s)
    | some cell => (.ok v, s.setCell v.chunk v.row (some ⟨cell.item, f cell.values⟩))

/-- One call. -/
inductive Call (T V : Type) : Type 1 where
  | newPartition (layout : List T)
  | newItem
  | setId (item : Nat) (id : SlotId)
  | issue (partition : Nat)
  /-- Any id may be registered, whether it was issued or not. -/
  | occupy (partition : Nat) (id : SlotId) (item : Nat) (values : List V)
  | insert (partition item : Nat) (values : List V)
  /-- To free an id is to remove with a check that agrees. -/
  | evict {α : Type} (partition : Nat) (id : SlotId) (accept : RowView V → Except StoreError α)
  | row (partition : Nat) (id : SlotId)
  | rewrite (partition : Nat) (id : SlotId) (f : List V → List V)
  /-- From now on memory answers in this way. Nobody asks for that, it happens. -/
  | memory (m : Memory)

/-- What a call answers when it succeeds. -/
inductive Answer (V : Type) where
  | done
  /-- The number of a new partition or of a new item. -/
  | number (n : Nat)
  | id (id : SlotId)
  | row (v : RowView V)
  | evicted (item : Nat) (values : List V) (id : SlotId)

/-- The answer of an operation as the answer of a call. -/
def answering {β : Type} (f : β → Answer V) (outcome : Except StoreError β × RowStore T V) :
    Except StoreError (Answer V) × RowStore T V :=
  (outcome.1.map f, outcome.2)

variable [ComponentType T]

/-- What a call answers, and what it leaves. -/
def perform (s : RowStore T V) : Call T V → Except StoreError (Answer V) × RowStore T V
  | .newPartition layout => answering .number (s.newPartition layout)
  | .newItem => (.ok (.number s.newItem.1), s.newItem.2)
  | .setId item id => (.ok .done, s.setId item id)
  | .issue partition => answering .id (s.issue partition)
  | .occupy partition id item values =>
    answering (fun _ => .done) (s.occupy partition id item values)
  | .insert partition item values => answering .id (s.insert partition item values)
  | .evict partition id accept =>
    answering (fun e => .evicted e.item e.values e.id) (s.evict partition id accept)
  | .row partition id => ((s.row partition id).map .row, s)
  | .rewrite partition id f => answering .row (s.rewrite partition id f)
  | .memory m => (.ok .done, s.withMemory m)

/-- What is left after calls, the first one first. -/
def after (s : RowStore T V) (calls : List (Call T V)) : RowStore T V :=
  calls.foldl (fun s call => (s.perform call).2) s

/-- What calls answer one after the other. -/
def answers (s : RowStore T V) : List (Call T V) → List (Except StoreError (Answer V))
  | [] => []
  | call :: rest => (s.perform call).1 :: answers (s.perform call).2 rest

/-- What every call keeps is kept by all of them. -/
theorem after_preserves {P : RowStore T V → Prop}
    (hstep : ∀ s, P s → ∀ call, P (s.perform call).2) {s : RowStore T V} (h : P s)
    (calls : List (Call T V)) : P (s.after calls) := by
  induction calls generalizing s with
  | nil => exact h
  | cons call rest ih => exact ih (hstep s h call)

/-! ### How memory answers -/

section memory

omit [ComponentType T]

theorem claimNext_memory (s : RowStore T V) (partition : Nat) :
    (s.claimNext partition).2.memory = s.memory := by
  grind [claimNext, modifyRows, modifyChunk]

theorem issueSpare_memory (s : RowStore T V) (partition : Nat) :
    (s.issueSpare partition).2.memory = s.memory := by
  grind [issueSpare, claimNext_memory, setFreeIds, modifyPartition, claimUpTo, modifyRows,
    modifyChunk]

theorem makeRoom_memory (s : RowStore T V) (partition : Nat) :
    (s.makeRoom partition).2.memory = s.memory := by
  grind [makeRoom, setFreeIds, modifyPartition]

theorem giveUpLast_memory (s : RowStore T V) (partition chunk last : Nat) :
    (s.giveUpLast partition chunk last).memory = s.memory := by
  grind [giveUpLast, pushFree, modifyRows, modifyChunk, modifyPartition]

theorem evictRow_memory (s : RowStore T V) (partition chunk row : Nat) :
    (s.evictRow partition chunk row).2.memory = s.memory := by
  grind [evictRow, giveUpLast_memory, pushFree, moveInto, relocate, setId, setCell, modifyRows,
    modifyChunk, modifyPartition]

theorem evict_memory {α : Type} (s : RowStore T V) (partition : Nat) (id : SlotId)
    (accept : RowView V → Except StoreError α) :
    (s.evict partition id accept).2.memory = s.memory := by
  have hmake := makeRoom_memory s partition
  have hrow := fun s => evictRow_memory (V := V) (T := T) s partition
  unfold evict
  split
  · rfl
  · split
    · rfl
    · split <;> grind

theorem occupyRow_memory (s : RowStore T V) (chunk row item : Nat) (values : List V) :
    (s.occupyRow chunk row item values).2.memory = s.memory := by
  grind [occupyRow, setCell, modifyRows, modifyChunk]

theorem occupy_memory (s : RowStore T V) (partition : Nat) (id : SlotId) (item : Nat)
    (values : List V) : (s.occupy partition id item values).2.memory = s.memory := by
  grind [occupy, setId, setCell, modifyRows, modifyChunk]

theorem rewrite_memory (s : RowStore T V) (partition : Nat) (id : SlotId)
    (f : List V → List V) : (s.rewrite partition id f).2.memory = s.memory := by
  grind [rewrite, setCell, modifyRows, modifyChunk]

end memory

omit [ComponentType T] in
theorem linkNext_memory (s : RowStore T V) (previous : Option Nat) (next : Nat) :
    (s.linkNext previous next).memory = s.memory := by
  cases previous <;> rfl

theorem newChunk_memory (s : RowStore T V) (layout : List T) (previous : Option Nat) :
    (s.newChunk layout previous).2.memory = s.memory := by
  grind [newChunk, linkNext_memory, addChunk]

theorem newPartition_memory (s : RowStore T V) (layout : List T) :
    (s.newPartition layout).2.memory = s.memory := by
  grind [newPartition, newChunk_memory]

theorem extend_memory (s : RowStore T V) (partition : Nat) :
    (s.extend partition).2.memory = s.memory := by
  grind [extend, newChunk_memory, modifyPartition]

theorem issue_memory (s : RowStore T V) (partition : Nat) :
    (s.issue partition).2.memory = s.memory := by
  grind [issue, issueSpare_memory, extend_memory]

theorem insert_memory (s : RowStore T V) (partition item : Nat) (values : List V) :
    (s.insert partition item values).2.memory = s.memory := by
  have hissue := issue_memory s partition
  unfold insert
  split
  · grind
  · split
    · grind
    · have hstored := fun s chunk row => occupyRow_memory (V := V) (T := T) s chunk row item values
      grind [setId]

/-- How memory answers is not changed by what is asked of a store. -/
theorem perform_memory (s : RowStore T V) (call : Call T V) :
    (s.perform call).2.memory = match call with
      | .memory m => m
      | _ => s.memory := by
  cases call with
  | newPartition layout => exact newPartition_memory s layout
  | newItem => rfl
  | setId item id => rfl
  | issue partition => exact issue_memory s partition
  | occupy partition id item values => exact occupy_memory s partition id item values
  | insert partition item values => exact insert_memory s partition item values
  | evict partition id accept => exact evict_memory s partition id accept
  | row partition id => rfl
  | rewrite partition id f => exact rewrite_memory s partition id f
  | memory m => rfl

end ArchetypeStore.RowStore

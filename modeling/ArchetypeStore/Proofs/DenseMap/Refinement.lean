import ArchetypeStore.Proofs.Copies
import ArchetypeStore.Proofs.DenseMap.Update
import Mathlib.Data.Finmap
import Mathlib.Data.Finset.Sort

/-! # A dense map is a finite map

  Seen through its calls, a dense map is a finite map with an order of its keys: new keys go
  to the end, and the last key takes the place of one that is removed. Positions do not show in
  any answer. The sorted keys and their hash do not even show the order, only which keys there
  are. A copy goes its own way from the moment it is made.

  Keys have 32 bits here. As long as one of them is not in the map all this is so. When the
  last one is put in, its position is the word that stands for no position.
-/

namespace ArchetypeStore.DenseMap

variable {V : Type}

/-! ### Calls -/

/-- A call of a dense map. -/
inductive Call (V : Type) where
  | insert (key : UInt32) (value : V)
  | modify (key : UInt32) (f : V → V)
  | erase (key : UInt32)
  | get (key : UInt32)
  | contains (key : UInt32)
  | size
  | list
  | sortedKeys
  | hash

/-- What a call answers. -/
inductive Answer (V : Type) where
  | value (v : Option V)
  | verdict (b : Bool)
  | number (n : Nat)
  | entries (l : List (Nat × V))
  | keys (l : List Nat)
  | hash (h : UInt64)
  deriving DecidableEq

/-- Carry out a call. -/
def call (m : DenseMap V) : Call V → Answer V × DenseMap V
  | .insert key value =>
    (.value (m.insert key.toNat value).1, (m.insert key.toNat value).2)
  | .modify key f => (.verdict (m.modify key.toNat f).1, (m.modify key.toNat f).2)
  | .erase key => (.value (m.erase key.toNat).1, (m.erase key.toNat).2)
  | .get key => (.value (m.get? key.toNat), m)
  | .contains key => (.verdict (m.contains key.toNat), m)
  | .size => (.number m.size, m)
  | .list => (.entries m.toList, m)
  | .sortedKeys => (.keys m.sortedKeys, m)
  | .hash => (.hash m.keysHash, m)

/-! ### Finite maps with an order -/

/-- A finite map, and its keys in some order. -/
structure Ordered (V : Type) where
  map : Finmap fun _ : Nat => V
  order : List Nat

namespace Ordered

/-- No keys. -/
def empty : Ordered V := ⟨∅, []⟩

/-- The keys in their order, with their values. -/
def entries (e : Ordered V) : List (Nat × V) :=
  e.order.filterMap fun key => (e.map.lookup key).map (key, ·)

/-- Insert or replace. A new key goes to the end. -/
def insert (e : Ordered V) (key : Nat) (value : V) : Ordered V :=
  ⟨e.map.insert key value, if key ∈ e.map then e.order else e.order ++ [key]⟩

/-- Change the value of a key. -/
def modify (e : Ordered V) (key : Nat) (f : V → V) : Ordered V :=
  match e.map.lookup key with
  | some value => ⟨e.map.insert key (f value), e.order⟩
  | none => e

/-- Remove a key. The last one takes its place. -/
def erase (e : Ordered V) (key : Nat) : Ordered V :=
  ⟨e.map.erase key, if key ∈ e.map then fillGap e.order key else e.order⟩

/-- Carry out a call. -/
def call (e : Ordered V) : Call V → Answer V × Ordered V
  | .insert key value => (.value (e.map.lookup key.toNat), e.insert key.toNat value)
  | .modify key f => (.verdict (decide (key.toNat ∈ e.map)), e.modify key.toNat f)
  | .erase key => (.value (e.map.lookup key.toNat), e.erase key.toNat)
  | .get key => (.value (e.map.lookup key.toNat), e)
  | .contains key => (.verdict (decide (key.toNat ∈ e.map)), e)
  | .size => (.number e.map.keys.card, e)
  | .list => (.entries e.entries, e)
  | .sortedKeys => (.keys e.map.keys.sort, e)
  | .hash => (.hash (setHash e.map.keys.sort), e)

/-- There is a key of 32 bits that is not in the map. -/
def Spare (e : Ordered V) : Prop := e.map.keys.card < 2 ^ 32

theorem keys_insert (map : Finmap fun _ : Nat => V) (key : Nat) (value : V) :
    (map.insert key value).keys = Insert.insert key map.keys := by
  ext k
  rw [Finmap.mem_keys, Finmap.mem_insert, Finset.mem_insert, Finmap.mem_keys]

theorem lookup_insert (map : Finmap fun _ : Nat => V) (key k : Nat) (value : V) :
    (map.insert key value).lookup k = if k = key then some value else map.lookup k := by
  by_cases hk : k = key
  · subst hk
    rw [if_pos rfl, Finmap.lookup_insert]
  · rw [if_neg hk, Finmap.lookup_insert_of_ne _ hk]

theorem lookup_erase (map : Finmap fun _ : Nat => V) (key k : Nat) :
    (map.erase key).lookup k = if k = key then none else map.lookup k := by
  by_cases hk : k = key
  · subst hk
    rw [if_pos rfl, Finmap.lookup_erase]
  · rw [if_neg hk, Finmap.lookup_erase_ne hk]

end Ordered

/-! ### What a dense map stands for -/

/-- The dense map has these entries in this order. -/
structure Represents (m : DenseMap V) (e : Ordered V) : Prop where
  wf : m.Wf
  keys_eq : m.keys.toList = e.order
  get?_eq : ∀ key, m.get? key = e.map.lookup key

namespace Represents

variable {m : DenseMap V} {e : Ordered V}

theorem withCapacity (keyCapacity : Nat) :
    Represents (withCapacity keyCapacity : DenseMap V) .empty := by
  refine ⟨withCapacity_wf keyCapacity, rfl, ?_⟩
  intro key
  have habsent : (DenseMap.withCapacity keyCapacity : DenseMap V).position? key = none := by
    unfold position? DenseMap.withCapacity
    rw [Array.getElem?_replicate]
    split <;> rfl
  rw [get?_of_absent habsent]
  rfl

theorem contains_eq (h : Represents m e) (key : Nat) : m.contains key = decide (key ∈ e.map) := by
  rw [← h.wf.isSome_get?, h.get?_eq, Bool.eq_iff_iff, Finmap.lookup_isSome, decide_eq_true_iff]

theorem mem_order (h : Represents m e) (key : Nat) : key ∈ e.order ↔ key ∈ e.map := by
  rw [← h.keys_eq, ← h.wf.contains_iff, h.contains_eq, decide_eq_true_iff]

theorem order_nodup (h : Represents m e) : e.order.Nodup := by
  rw [← h.keys_eq]
  exact h.wf.keys_nodup

theorem size_eq (h : Represents m e) : m.size = e.map.keys.card := by
  have hkeys : e.map.keys = e.order.toFinset := by
    ext key
    rw [Finmap.mem_keys, List.mem_toFinset, h.mem_order]
  rw [hkeys, List.toFinset_card_of_nodup h.order_nodup, ← h.keys_eq]
  rfl

theorem sortedKeys_eq (h : Represents m e) : m.sortedKeys = e.map.keys.sort := by
  obtain ⟨hperm, hascending⟩ := h.wf.sortedKeys_spec
  apply DenseSet.eq_of_ascending hascending e.map.keys.sortedLT_sort.pairwise
  intro key
  rw [hperm.mem_iff, h.keys_eq, h.mem_order, Finset.mem_sort, Finmap.mem_keys]

theorem keysHash_eq (h : Represents m e) : m.keysHash = setHash e.map.keys.sort := by
  rw [keysHash, h.sortedKeys_eq]

/-- Every entry is looked up with its key. -/
theorem lookup_of_mem (h : Represents m e) {entry : Nat × V} (hentry : entry ∈ m.toList) :
    e.map.lookup entry.1 = some entry.2 := by
  rw [← h.get?_eq]
  exact (h.wf.get?_eq_some_iff entry.1 entry.2).mpr hentry

theorem toList_eq (h : Represents m e) : m.toList = e.entries := by
  have hentries : m.toList.filterMap
      (fun entry => (e.map.lookup entry.1).map (entry.1, ·)) = m.toList.filterMap some := by
    apply List.filterMap_congr
    intro entry hentry
    rw [h.lookup_of_mem hentry]
    rfl
  rw [Ordered.entries, ← h.keys_eq, ← h.wf.keys_toList, List.filterMap_map]
  exact ((hentries.trans List.filterMap_some)).symm

theorem values_eq (h : Represents m e) :
    m.values.toList.map some = e.order.map e.map.lookup := by
  rw [← h.keys_eq, ← h.wf.keys_toList, ← h.wf.values_toList, List.map_map, List.map_map]
  apply List.map_congr_left
  intro entry hentry
  exact (h.lookup_of_mem hentry).symm

/-- A map that has a key to spare has had room for the last one. -/
theorem room (h : Represents m e) {key : Nat} {value : V} (hspare : (e.insert key value).Spare)
    (hnew : m.contains key = false) : m.size + 1 < 2 ^ 32 := by
  have hkey : key ∉ e.map.keys := by
    rw [Finmap.mem_keys, ← decide_eq_false_iff_not, ← h.contains_eq]
    exact hnew
  have hcard : (e.map.insert key value).keys.card = e.map.keys.card + 1 := by
    rw [Ordered.keys_insert, Finset.card_insert_of_notMem hkey]
  rw [h.size_eq, ← hcard]
  exact hspare

theorem insert (h : Represents m e) {key : Nat} {value : V}
    (hspare : (e.insert key value).Spare) :
    Represents (m.insert key value).2 (e.insert key value) := by
  have hinserted := h.wf.inserted (h.room hspare) value
  refine ⟨hinserted.wf, ?_, ?_⟩
  · rw [hinserted.keys_eq, h.keys_eq, h.contains_eq]
    simp [Ordered.insert]
  · intro k
    rw [hinserted.get?_eq, h.get?_eq]
    exact (Ordered.lookup_insert ..).symm

theorem modify (h : Represents m e) (key : Nat) (f : V → V) :
    Represents (m.modify key f).2 (e.modify key f) := by
  have hmodified := h.wf.modified key f
  unfold Ordered.modify
  cases hlookup : e.map.lookup key with
  | none =>
    refine ⟨hmodified.wf, ?_, ?_⟩
    · rw [hmodified.keys_eq, h.keys_eq]
    · intro k
      rw [hmodified.get?_eq, h.get?_eq]
      by_cases hk : k = key
      · rw [if_pos hk, hk, hlookup]
        rfl
      · rw [if_neg hk]
  | some value =>
    refine ⟨hmodified.wf, ?_, ?_⟩
    · rw [hmodified.keys_eq, h.keys_eq]
    · intro k
      rw [hmodified.get?_eq, h.get?_eq]
      show _ = (e.map.insert key (f value)).lookup k
      rw [Ordered.lookup_insert]
      by_cases hk : k = key
      · rw [if_pos hk, if_pos hk, hk, hlookup]
        rfl
      · rw [if_neg hk, if_neg hk]

theorem erase (h : Represents m e) (key : Nat) :
    Represents (m.erase key).2 (e.erase key) := by
  have herased := h.wf.erased key
  refine ⟨herased.wf, ?_, ?_⟩
  · rw [herased.keys_eq, h.keys_eq, h.contains_eq]
    simp [Ordered.erase]
  · intro k
    rw [herased.get?_eq, h.get?_eq]
    exact (Ordered.lookup_erase ..).symm

end Represents

/-- The dense map answers like the finite map, and stands for it afterwards. -/
theorem call_agrees : Copies.Agree Ordered.Spare Represents (call (V := V)) Ordered.call := by
  intro m e h c hspare
  cases c with
  | insert key value =>
    have hinserted := h.wf.inserted (h.room hspare) value
    exact ⟨congrArg Answer.value (hinserted.answer.trans (h.get?_eq _)), h.insert hspare⟩
  | modify key f =>
    exact ⟨congrArg Answer.verdict ((h.wf.modified _ f).answer.trans (h.contains_eq _)),
      h.modify _ f⟩
  | erase key =>
    exact ⟨congrArg Answer.value ((h.wf.erased _).answer.trans (h.get?_eq _)), h.erase _⟩
  | get key => exact ⟨congrArg Answer.value (h.get?_eq _), h⟩
  | contains key => exact ⟨congrArg Answer.verdict (h.contains_eq _), h⟩
  | size => exact ⟨congrArg Answer.number h.size_eq, h⟩
  | list => exact ⟨congrArg Answer.entries h.toList_eq, h⟩
  | sortedKeys => exact ⟨congrArg Answer.keys h.sortedKeys_eq, h⟩
  | hash => exact ⟨congrArg Answer.hash h.keysHash_eq, h⟩

/-! ### Runs -/

/-- Everything that can be read off the dense map is so of the finite map. -/
structure Reads (m : DenseMap V) (e : Ordered V) : Prop where
  get?_eq : ∀ key, m.get? key = e.map.lookup key
  contains_eq : ∀ key, m.contains key = decide (key ∈ e.map)
  size_eq : m.size = e.map.keys.card
  /-- The order has the keys of the finite map, each once. -/
  mem_order : ∀ key, key ∈ e.order ↔ key ∈ e.map
  order_nodup : e.order.Nodup
  /-- Keys and values lie side by side. -/
  keys_eq : m.keys.toList = e.order
  values_eq : m.values.toList.map some = e.order.map e.map.lookup
  toList_eq : m.toList = e.entries
  /-- The keys can be sorted by counting, with the positions that there are. -/
  sort_eq : CountingSort.sort m.keys.toList m.positions.size = .ok m.sortedKeys
  sortedKeys_eq : m.sortedKeys = e.map.keys.sort
  keysHash_eq : m.keysHash = setHash e.map.keys.sort
  position_lt : ∀ key pos, m.position? key = some pos → pos < m.size

theorem Represents.reads {m : DenseMap V} {e : Ordered V} (h : Represents m e) : Reads m e := by
  refine ⟨h.get?_eq, h.contains_eq, h.size_eq, h.mem_order, h.order_nodup, h.keys_eq, h.values_eq,
    h.toList_eq, ?_, h.sortedKeys_eq, h.keysHash_eq, ?_⟩
  · obtain ⟨sorted, hsort⟩ :=
      CountingSort.sort_of_nodup h.wf.keys_nodup fun v hv => h.wf.key_lt hv
    rw [sortedKeys, hsort]
  · intro key pos hpos
    exact h.wf.lt_of_position hpos

/-- Put in the keys below a number in turn, each as its own value. -/
def filling (n : Nat) : List (Call Nat) :=
  (List.range n).map fun key => .insert (UInt32.ofNat key) key

theorem filling_succ (n : Nat) : filling (n + 1) = filling n ++ [.insert (UInt32.ofNat n) n] := by
  rw [filling, List.range_succ, List.map_append]
  rfl

theorem after_filling_succ {σ α : Type} (act : σ → Call Nat → α × σ) (s : σ) (n : Nat) :
    Copies.after act s (filling (n + 1)) =
      (act (Copies.after act s (filling n)) (.insert (UInt32.ofNat n) n)).2 := by
  rw [filling_succ, Copies.after, List.foldl_append]
  rfl

/-- The map without the last key is as it should be. -/
theorem filled {n : Nat} (hn : n < 2 ^ 32) (keyCapacity : Nat) :
    (Copies.after call (withCapacity keyCapacity) (filling n)).Wf ∧
      (Copies.after call (withCapacity keyCapacity) (filling n)).toList =
        (List.range n).map fun key => (key, key) := by
  induction n with
  | zero => exact ⟨withCapacity_wf keyCapacity, rfl⟩
  | succ n ih =>
    obtain ⟨hwf, hlist⟩ := ih (Nat.lt_of_succ_lt hn)
    have hkey : (UInt32.ofNat n).toNat = n := UInt32.toNat_ofNat_of_lt' (Nat.lt_of_succ_lt hn)
    have hkeys : (Copies.after call (withCapacity keyCapacity) (filling n)).keys.toList =
        List.range n := by
      rw [← hwf.keys_toList, hlist, List.map_map]
      exact List.map_id _
    have hnew : (Copies.after call (withCapacity keyCapacity) (filling n)).contains n = false := by
      rw [← Bool.not_eq_true, hwf.contains_iff, hkeys]
      exact List.not_mem_range_self
    have hsize : (Copies.after call (withCapacity keyCapacity) (filling n)).keys.size = n := by
      rw [← Array.length_toList, hkeys, List.length_range]
    obtain ⟨-, hwf', -, hlist'⟩ := insert_of_new hwf hnew (by rw [hsize]; exact hn) n
    rw [after_filling_succ, call, hkey, List.range_succ, List.map_append, ← hlist]
    exact ⟨hwf', hlist'⟩

end ArchetypeStore.DenseMap

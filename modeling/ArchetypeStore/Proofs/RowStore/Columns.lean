import ArchetypeStore.Proofs.RowStore.Growth

/-! # Memory for columns

  A column takes the bytes of one value for each row of a chunk. There may be too many of them
  for a word, or for a layout, or the memory may refuse them. The first and the last are memory
  that cannot be had. In between the layout is rejected as if it were a setting.
-/

namespace ArchetypeStore

/-- The table of the items in a chunk is small. -/
theorem IdFormat.Valid.rows_lt {format : IdFormat} (h : format.Valid) :
    format.rowsPerChunk * WordWidth.bits64.bytes < Memory.ampleLimit := by
  have hrows : format.rowsPerChunk ≤ 1 <<< maxRowBits := by
    rw [rowsPerChunk, Nat.one_shiftLeft, Nat.one_shiftLeft]
    exact Nat.pow_le_pow_right (by decide) h.rowBits_le
  calc format.rowsPerChunk * WordWidth.bits64.bytes
      ≤ (1 <<< maxRowBits) * WordWidth.bits64.bytes := Nat.mul_le_mul_right _ hrows
    _ < Memory.ampleLimit := by decide

/-! ### One request -/

/-- Why the memory does not have a block, if it does not. -/
def Memory.refusal (m : Memory) (purpose : Purpose) (layout : Layout) : Option StoreError :=
  if layout.size ≠ 0 ∧ m.grants purpose layout = false then some (.allocationFailed layout.size)
  else none

theorem Memory.allocate_eq (m : Memory) (purpose : Purpose) (layout : Layout) :
    m.allocate purpose layout = match m.refusal purpose layout with
      | some e => .error e
      | none => .ok ⟨layout⟩ := by
  unfold allocate refusal
  by_cases hzero : layout.size = 0
  · simp [hzero]
  · cases hgrants : m.grants purpose layout <;> simp [hzero]

theorem Memory.refusal_isFatal {m : Memory} {purpose : Purpose} {layout : Layout} {e : StoreError}
    (h : m.refusal purpose layout = some e) : e.isFatal = true := by
  unfold refusal at h
  split at h
  · cases h
    rfl
  · cases h

/-! ### One column -/

namespace ComponentType

variable {T : Type} [ComponentType T] {m : Memory} {t : T} {capacity : Nat} {e : StoreError}

/-- The bytes of a column can be counted in a word, but no layout has as many. -/
def Unlaid (t : T) (capacity : Nat) : Prop :=
  size t * capacity < 1 <<< 64 ∧ Layout.maxSize < size t * capacity + (align t - 1)

/-- Why there is no column of so many rows, if there is none. -/
def columnError (m : Memory) (t : T) (capacity : Nat) : Option StoreError :=
  if 1 <<< 64 ≤ size t * capacity then some (.allocationFailed ((1 <<< 64) - 1))
  else if Layout.maxSize < size t * capacity + (align t - 1) then some Layout.invalid
  else m.refusal .column ⟨size t * capacity, align t⟩

theorem columnError_cases (h : columnError m t capacity = some e) :
    e.isFatal = true ∨ e = Layout.invalid ∧ Unlaid t capacity := by
  unfold columnError at h
  split at h
  · cases h
    exact .inl rfl
  · rename_i hword
    split at h
    · rename_i hlayout
      cases h
      exact .inr ⟨rfl, Nat.lt_of_not_le hword, hlayout⟩
    · exact .inl (Memory.refusal_isFatal h)

theorem LaidOut.not_unlaid (h : LaidOut t capacity) : ¬ Unlaid t capacity := by
  rintro ⟨-, hlarge⟩
  have hvalid := h.2
  simp only [Layout.isValid, Bool.and_eq_true, decide_eq_true_eq] at hvalid
  exact absurd hvalid.2 (Nat.not_le_of_lt hlarge)

/-- The alignment of every type is a power of two. -/
def Aligned (T : Type) [ComponentType T] : Prop :=
  ∀ t : T, Layout.isPowerOfTwo (align t) = true

/-- Without a layout there is no column, whatever the memory has. -/
theorem isSome_columnError_of_not_laidOut (haligned : Aligned T) (m : Memory)
    (h : ¬ LaidOut t capacity) : (columnError m t capacity).isSome := by
  unfold columnError
  split
  · rfl
  · rename_i hword
    split
    · rfl
    · rename_i hlayout
      refine absurd ⟨Nat.lt_of_not_le hword, ?_⟩ h
      rw [Layout.isValid, haligned t, Bool.true_and]
      exact decide_eq_true (Nat.le_of_not_lt hlayout)

/-- The request for a column fails for the reason given, and only if there is one. -/
theorem allocateColumn_eq (haligned : Aligned T) (m : Memory) (t : T) (capacity : Nat) :
    allocateColumn m t capacity = match columnError m t capacity with
      | some e => .error e
      | none => .ok ⟨⟨size t * capacity, align t⟩⟩ := by
  unfold allocateColumn columnError
  by_cases hword : size t * capacity < 1 <<< 64
  · rw [if_pos hword, if_neg (Nat.not_le_of_lt hword), Layout.ofSizeAlign, Layout.isValid,
      haligned t, Bool.true_and]
    by_cases hlayout : size t * capacity + (align t - 1) ≤ Layout.maxSize
    · rw [if_pos (decide_eq_true hlayout), if_neg (Nat.not_lt_of_le hlayout)]
      exact Memory.allocate_eq m .column _
    · rw [if_neg fun hvalid => hlayout (of_decide_eq_true hvalid),
        if_pos (Nat.lt_of_not_le hlayout)]
      rfl
  · rw [if_neg hword, if_pos (Nat.le_of_not_lt hword)]

end ComponentType

/-! ### The columns of a chunk -/

namespace RowStore

variable {T V : Type} [ComponentType T] {m : Memory} {capacity : Nat} {layout : List T}
  {e : StoreError}

/-- Why there are no columns of so many rows: the reason of the first one that is refused. -/
def columnsError (m : Memory) (capacity : Nat) (layout : List T) : Option StoreError :=
  layout.findSome? (ComponentType.columnError m · capacity)

/-- Why there is no chunk of so many rows: a column is refused, or the table of items. -/
def chunkError (m : Memory) (capacity : Nat) (layout : List T) : Option StoreError :=
  (columnsError m capacity layout).or
    (m.refusal .items ⟨capacity * WordWidth.bits64.bytes, WordWidth.bits64.bytes⟩)

theorem chunkError_cases (h : chunkError m capacity layout = some e) :
    e.isFatal = true ∨ e = Layout.invalid ∧ ∃ t ∈ layout, ComponentType.Unlaid t capacity := by
  rcases Option.or_eq_some_iff.mp h with hcolumns | ⟨-, hitems⟩
  · obtain ⟨t, ht, hcolumn⟩ := List.exists_of_findSome?_eq_some hcolumns
    rcases ComponentType.columnError_cases hcolumn with hfatal | ⟨rfl, hunlaid⟩
    · exact .inl hfatal
    · exact .inr ⟨rfl, t, ht, hunlaid⟩
  · exact .inl (Memory.refusal_isFatal hitems)

theorem isSome_chunkError {t : T} (ht : t ∈ layout)
    (h : (ComponentType.columnError m t capacity).isSome) :
    (chunkError m capacity layout).isSome := by
  rw [chunkError, Option.isSome_or, Bool.or_eq_true]
  exact .inl (List.findSome?_isSome_iff.mpr ⟨t, ht, h⟩)

/-- The table of items has a layout, as long as the rows are few enough. -/
theorem allocateChunk_eq (haligned : ComponentType.Aligned T) (m : Memory)
    (hrows : capacity * WordWidth.bits64.bytes < Memory.ampleLimit) (layout : List T) :
    allocateChunk m capacity layout = match chunkError m capacity layout with
      | some e => .error e
      | none => .ok () := by
  induction layout with
  | nil =>
    rw [allocateChunk, Buffer.reserve_eq hrows, Memory.allocate_eq]
    unfold chunkError columnsError
    simp only [List.findSome?_nil, Option.none_or]
    cases m.refusal .items ⟨capacity * WordWidth.bits64.bytes, WordWidth.bits64.bytes⟩ <;> rfl
  | cons t rest ih =>
    rw [allocateChunk, ComponentType.allocateColumn_eq haligned, ih]
    unfold chunkError columnsError
    cases hcolumn : ComponentType.columnError m t capacity with
    | some e =>
      simp only [List.findSome?_cons, hcolumn]
      rfl
    | none =>
      simp only [List.findSome?_cons, hcolumn]
      rfl

/-- Where each column has a layout, it is memory that a chunk cannot have. -/
theorem allocateChunk_failed (hrows : capacity * WordWidth.bits64.bytes < Memory.ampleLimit)
    (hlaid : ∀ t ∈ layout, ComponentType.LaidOut t capacity)
    (h : allocateChunk m capacity layout = .error e) : ∃ bytes, e = .allocationFailed bytes := by
  induction layout with
  | nil =>
    rw [allocateChunk, Buffer.reserve_eq hrows] at h
    cases hitems :
        m.allocate .items ⟨capacity * WordWidth.bits64.bytes, WordWidth.bits64.bytes⟩ with
    | error e' =>
      rw [hitems] at h
      cases h
      exact ⟨_, Memory.allocate_error hitems⟩
    | ok block =>
      rw [hitems] at h
      cases h
  | cons t rest ih =>
    obtain ⟨hfirst, hrest⟩ := List.forall_mem_cons.mp hlaid
    rw [allocateChunk, hfirst.allocateColumn m] at h
    cases hcolumn : m.allocate .column
        ⟨ComponentType.size t * capacity, ComponentType.align t⟩ with
    | error e' =>
      rw [hcolumn] at h
      cases h
      exact ⟨_, Memory.allocate_error hcolumn⟩
    | ok block =>
      rw [hcolumn] at h
      exact ih hrest h

/-- Why no partition with these columns is made, if none is. -/
def partitionError (s : RowStore T V) (layout : List T) : Option StoreError :=
  if s.format.maxChunks ≤ s.chunkCount then
    some (.chunkCapacityExhausted s.format.maxChunks)
  else chunkError s.memory s.format.rowsPerChunk layout

theorem partitionError_cases {s : RowStore T V} (h : s.partitionError layout = some e) :
    e.isFatal = true ∨
      e = Layout.invalid ∧ ∃ t ∈ layout, ComponentType.Unlaid t s.format.rowsPerChunk := by
  unfold partitionError at h
  split at h
  · cases h
    exact .inl rfl
  · exact chunkError_cases h

theorem isSome_partitionError {s : RowStore T V}
    (h : (chunkError s.memory s.format.rowsPerChunk layout).isSome) :
    (s.partitionError layout).isSome := by
  unfold partitionError
  split
  · rfl
  · exact h

theorem newPartition_answer (haligned : ComponentType.Aligned T) {s : RowStore T V}
    (hvalid : s.format.Valid) (layout : List T) :
    (s.newPartition layout).1 = match s.partitionError layout with
      | some e => .error e
      | none => .ok s.partitions.size := by
  unfold newPartition newChunk partitionError
  by_cases hfull : s.format.maxChunks ≤ s.chunkCount
  · rw [if_pos hfull, if_pos hfull]
  · rw [if_neg hfull, if_neg hfull, allocateChunk_eq haligned s.memory hvalid.rows_lt]
    cases chunkError s.memory s.format.rowsPerChunk layout with
    | some e => rfl
    | none => exact congrArg Except.ok (congrArg Array.size (partitions_linkNext s none _))

end RowStore

end ArchetypeStore

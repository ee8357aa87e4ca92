import ArchetypeStore.ComponentType

/-! # Refused memory

  A request for memory is refused because it is not to be had or because no layout has its
  size and alignment. These errors, and those of used-up numbers and hashes, stop growth:
  the operation cannot succeed whatever the caller does about it.
-/

namespace ArchetypeStore

/-- The store cannot grow in the way that was asked for. -/
def StoreError.StopsGrowth (e : StoreError) : Prop := e.isFatal = true ∨ e = Layout.invalid

theorem StoreError.StopsGrowth.ne_entityNotFound {e : StoreError} (h : e.StopsGrowth) :
    e ≠ .entityNotFound := by
  rintro rfl
  rcases h with h | h <;> cases h

/-- A request for memory was refused: it is not to be had, or no layout has its size and
alignment. -/
def StoreError.OfMemory (e : StoreError) : Prop :=
  (∃ bytes, e = .allocationFailed bytes) ∨ e = Layout.invalid

theorem StoreError.OfMemory.stopsGrowth {e : StoreError} (h : e.OfMemory) : e.StopsGrowth := by
  rcases h with ⟨bytes, rfl⟩ | rfl
  · exact .inl rfl
  · exact .inr rfl

theorem StoreError.OfMemory.ne_chunkCapacityExhausted {e : StoreError} (h : e.OfMemory)
    (maxChunks : Nat) : e ≠ .chunkCapacityExhausted maxChunks := by
  rintro rfl
  rcases h with ⟨bytes, h⟩ | h <;> cases h

/-! ### Memory -/

namespace Memory

theorem allocate_error {m : Memory} {purpose : Purpose} {layout : Layout} {e : StoreError}
    (h : m.allocate purpose layout = .error e) : e = .allocationFailed layout.size := by
  unfold allocate at h
  split at h
  · cases h
  · split at h
    · cases h
    · exact (Except.error.inj h).symm

theorem allocate_refused {m : Memory} {purpose : Purpose} {layout : Layout} {e : StoreError}
    (h : m.allocate purpose layout = .error e) : e.OfMemory := .inl ⟨_, allocate_error h⟩

/-- A request is answered by the memory alone, unless it is for no bytes. -/
theorem allocate_eq_ok_iff {m : Memory} {purpose : Purpose} {layout : Layout} {block : Block} :
    m.allocate purpose layout = .ok block ↔
      (layout.size = 0 ∨ m.grants purpose layout = true) ∧ block = ⟨layout⟩ := by
  have hblock : (Except.ok ⟨layout⟩ : Except StoreError Block) = .ok block ↔ block = ⟨layout⟩ :=
    ⟨fun heq => (Except.ok.inj heq).symm, fun heq => congrArg Except.ok heq.symm⟩
  unfold allocate
  split
  · rename_i hzero
    rw [hblock]
    exact ⟨fun heq => ⟨.inl hzero, heq⟩, And.right⟩
  · rename_i hsize
    split
    · rename_i hgrants
      rw [hblock]
      exact ⟨fun heq => ⟨.inr hgrants, heq⟩, And.right⟩
    · rename_i hrefuses
      exact ⟨fun heq => (nomatch heq), fun h => (h.1.elim hsize hrefuses).elim⟩

/-- For this purpose the memory is as good as ample. -/
def Serves (m : Memory) (purpose : Purpose) : Prop :=
  ∀ layout : Layout, layout.size < ampleLimit → m.grants purpose layout = true

theorem ample_serves (purpose : Purpose) : ample.Serves purpose := fun _ => decide_eq_true

end Memory

theorem Layout.ofSizeAlign_refused {size align : Nat} {e : StoreError}
    (h : Layout.ofSizeAlign size align = .error e) : e.OfMemory := by
  unfold Layout.ofSizeAlign at h
  split at h
  · cases h
  · exact .inr (Except.error.inj h).symm

namespace Buffer

variable {m : Memory} {purpose : Purpose} {width : WordWidth} {length : Nat}

theorem reserve_refused {e : StoreError} (h : reserve m purpose width length = .error e) :
    e.OfMemory := by
  unfold reserve at h
  cases hlayout : Layout.array width.bytes width.bytes length with
  | error e' =>
    rw [hlayout] at h
    cases h
    exact Layout.ofSizeAlign_refused hlayout
  | ok layout =>
    rw [hlayout] at h
    exact Memory.allocate_refused h

/-- Words have a layout, so it is for the memory to say whether they can be had. -/
theorem reserve_eq (h : length * width.bytes < Memory.ampleLimit) :
    reserve m purpose width length = m.allocate purpose ⟨length * width.bytes, width.bytes⟩ := by
  have hpower : Layout.isPowerOfTwo width.bytes = true := by cases width <;> decide
  have hbytes : width.bytes ≤ 8 := by cases width <;> decide
  have hlayout : Layout.array width.bytes width.bytes length =
      .ok ⟨length * width.bytes, width.bytes⟩ := by
    -- The limit of a layout is far above that of ample memory.
    have hsize : length * width.bytes + (width.bytes - 1) ≤ Layout.maxSize := by
      unfold Memory.ampleLimit at h
      unfold Layout.maxSize
      omega
    have hvalid : Layout.isValid (length * width.bytes) width.bytes = true := by
      simp only [Layout.isValid, hpower, Bool.true_and, decide_eq_true hsize]
    exact if_pos hvalid
  unfold reserve
  rw [hlayout]
  rfl

/-- Where the memory serves the purpose they can be had, within the limit of ample memory. -/
theorem reserve_served (hserves : m.Serves purpose)
    (h : length * width.bytes < Memory.ampleLimit) :
    reserve m purpose width length = .ok ⟨⟨length * width.bytes, width.bytes⟩⟩ := by
  rw [reserve_eq h]
  exact Memory.allocate_eq_ok_iff.mpr ⟨.inr (hserves _ h), rfl⟩

end Buffer

namespace ComponentType

variable {T : Type} [ComponentType T] {m : Memory} {t : T} {e : StoreError}

theorem allocateColumn_refused {capacity : Nat} (h : allocateColumn m t capacity = .error e) :
    e.OfMemory := by
  unfold allocateColumn at h
  split at h
  · cases hlayout : Layout.ofSizeAlign (size t * capacity) (align t) with
    | error e' =>
      rw [hlayout] at h
      cases h
      exact Layout.ofSizeAlign_refused hlayout
    | ok layout =>
      rw [hlayout] at h
      exact Memory.allocate_refused h
  · cases h
    exact .inl ⟨_, rfl⟩

/-- There is a layout for a column of so many values, whether the memory has it or not. -/
def LaidOut (t : T) (capacity : Nat) : Prop :=
  size t * capacity < 1 <<< 64 ∧ Layout.isValid (size t * capacity) (align t) = true

theorem LaidOut.allocateColumn {capacity : Nat} (h : LaidOut t capacity) (m : Memory) :
    allocateColumn m t capacity = m.allocate .column ⟨size t * capacity, align t⟩ := by
  rw [ComponentType.allocateColumn, if_pos h.1, Layout.ofSizeAlign, if_pos h.2]
  rfl

theorem laidOut_of_allocateColumn {capacity : Nat} {block : Block}
    (h : allocateColumn m t capacity = .ok block) : LaidOut t capacity := by
  unfold ComponentType.allocateColumn at h
  split at h
  · rename_i hword
    by_cases hvalid : Layout.isValid (size t * capacity) (align t) = true
    · exact ⟨hword, hvalid⟩
    · rw [Layout.ofSizeAlign, if_neg hvalid] at h
      cases h
  · cases h

end ComponentType

end ArchetypeStore

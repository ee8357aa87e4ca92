import ArchetypeStore.Proofs.SlotId
import ArchetypeStore.Proofs.TypeRegistry.Width
import ArchetypeStore.World.Basic

/-! # Settings that pass the check

  The limits of the settings are checked three times: all together by `validate`, and again
  by the id format and the type registry that are built from them. The checks agree. So a
  store can be built from all settings that pass and from no others, and the id format that
  it gets leaves both flags alone.
-/

namespace ArchetypeStore

/-! ### Limits -/

namespace Settings

/-- The settings that the id format depends on are within their limits. -/
structure FormatInRange (c : Settings) : Prop where
  rowBits_ge : IdFormat.minRowBits ≤ c.rowBits.toNat
  rowBits_le : c.rowBits.toNat ≤ IdFormat.maxRowBits
  maxChunks_ne : c.maxChunks ≠ some 0

/-- The settings that the type registry depends on are within their limits. One limit is a
setting itself. -/
structure RegistryInRange (c : Settings) : Prop where
  indexBits_ge : TypeRegistry.minBits ≤ c.indexBits.toNat
  indexBits_le : c.indexBits.toNat ≤ c.maxIndexBits.toNat
  maxIndexBits_le : c.maxIndexBits.toNat ≤ TypeRegistry.maxBits

theorem validate_iff (c : Settings) :
    c.validate = .ok () ↔ c.FormatInRange ∧ c.RegistryInRange := by
  unfold validate
  constructor
  · intro h
    split at h
    · cases h
    rename_i hrow
    split at h
    · cases h
    rename_i hchunks
    split at h
    · cases h
    rename_i hindex
    split at h
    · cases h
    rename_i hmax
    exact ⟨⟨by omega, by omega, hchunks⟩, by omega, by omega, by omega⟩
  · rintro ⟨⟨hlow, hhigh, hchunks⟩, hindex, hle, hmax⟩
    rw [if_neg (by omega), if_neg hchunks, if_neg (by omega), if_neg (by omega)]

theorem idFormat_isOk_iff (c : Settings) :
    (∃ format, c.idFormat = .ok format) ↔ c.FormatInRange := by
  unfold idFormat IdFormat.create
  constructor
  · intro h
    obtain ⟨format, h⟩ := h
    split at h
    · cases h
    rename_i hrow
    refine ⟨by omega, by omega, ?_⟩
    intro hchunks
    rw [hchunks] at h
    cases h
  · rintro ⟨hlow, hhigh, hchunks⟩
    rw [if_neg (by omega)]
    cases hlimit : c.maxChunks with
    | none => exact ⟨_, rfl⟩
    | some limit =>
      -- A limit that is not zero is the successor of a number.
      have hpos : limit.toNat ≠ 0 := by
        intro hzero
        apply hchunks
        rw [hlimit, ← UInt64.toNat_inj.mp (hzero.trans UInt64.toNat_zero.symm)]
      obtain ⟨n, hn⟩ := Nat.exists_eq_succ_of_ne_zero hpos
      rw [Option.map_some, hn]
      exact ⟨_, rfl⟩

theorem registry_isOk_iff {T : Type} (c : Settings) :
    (∃ registry : TypeRegistry T, c.registry = .ok registry) ↔ c.RegistryInRange := by
  unfold registry TypeRegistry.create
  constructor
  · intro h
    obtain ⟨registry, h⟩ := h
    split at h
    · cases h
    rename_i hbits
    exact ⟨by omega, by omega, by omega⟩
  · rintro ⟨hlow, hle, hmax⟩
    -- No table within the limits is too large for one request.
    obtain ⟨block, hblock⟩ :=
      TypeRegistry.allocateTable_isOk (Memory.ample_serves .table) (Nat.le_trans hle hmax)
    rw [if_neg (by omega), hblock]
    exact ⟨_, rfl⟩

end Settings

/-! ### Stores -/

variable {T V : Type} {c : Settings}

theorem Catalog.create_of_validate (h : c.validate = .ok ()) :
    ∃ catalog : Catalog T V, Catalog.create c = .ok catalog := by
  obtain ⟨hformat, hregistry⟩ := c.validate_iff.mp h
  obtain ⟨format, hformat⟩ := c.idFormat_isOk_iff.mpr hformat
  obtain ⟨registry, hregistry⟩ := (c.registry_isOk_iff (T := T)).mpr hregistry
  unfold Catalog.create
  rw [h, hregistry, hformat]
  exact ⟨_, rfl⟩

theorem Catalog.create_of_error {e : StoreError} (h : c.validate = .error e) :
    (Catalog.create c : Except StoreError (Catalog T V)) = .error e := by
  unfold Catalog.create
  rw [h]
  rfl

theorem World.create_of_validate (number : Nat) (h : c.validate = .ok ()) :
    ∃ w : World T V, World.create number c = .ok w := by
  obtain ⟨catalog, hcatalog⟩ := Catalog.create_of_validate (T := T) (V := V) h
  unfold World.create
  rw [hcatalog]
  exact ⟨_, rfl⟩

theorem World.create_of_error (number : Nat) {e : StoreError} (h : c.validate = .error e) :
    (World.create number c : Except StoreError (World T V)) = .error e := by
  unfold World.create
  rw [Catalog.create_of_error h]
  rfl

/-! ### Room for the flags -/

/-- The format leaves the flags alone. -/
structure IdFormat.FlagsFree (format : IdFormat) : Prop where
  maxChunks_pos : 1 ≤ format.maxChunks
  slots_le : format.maxChunks * format.rowsPerChunk ≤ 1 <<< 30
  isDetached_eq : ∀ chunk < format.maxChunks, ∀ row < format.rowsPerChunk,
    (format.slotId chunk row).isDetached = false
  isReserved_eq : ∀ chunk < format.maxChunks, ∀ row < format.rowsPerChunk,
    (format.slotId chunk row).isReserved = false

theorem IdFormat.Valid.flagsFree {format : IdFormat} (h : format.Valid) : format.FlagsFree := by
  refine ⟨h.maxChunks_pos, h.slots_le, ?_, ?_⟩
  · intro chunk hchunk row hrow
    exact SlotId.not_isDetached_of_isPlain (slotId_isPlain h hchunk hrow)
  · intro chunk hchunk row hrow
    exact SlotId.not_isReserved_of_isPlain (slotId_isPlain h hchunk hrow)

/-- The settings that pass the check are those from which the id format and the type registry
can be built, and those from which a world can be made; settings that do not pass are refused
with the error of the check. Every format that can be built leaves the flags alone. -/
theorem World.create_iff_validate (number : Nat) (c : Settings) :
    (c.validate = .ok () ↔ (∃ format, c.idFormat = .ok format) ∧
        ∃ registry : TypeRegistry T, c.registry = .ok registry) ∧
      (c.validate = .ok () ↔ ∃ w : World T V, World.create number c = .ok w) ∧
      (∀ e, c.validate = .error e ↔
        (World.create number c : Except StoreError (World T V)) = .error e) ∧
      ∀ format, c.idFormat = .ok format → format.FlagsFree := by
  refine ⟨?_, ?_, ?_, ?_⟩
  · rw [c.validate_iff, c.idFormat_isOk_iff, c.registry_isOk_iff]
  · constructor
    · exact World.create_of_validate number
    · intro hcreate
      obtain ⟨w, hcreate⟩ := hcreate
      cases hvalidate : c.validate with
      | ok => rfl
      | error e =>
        rw [World.create_of_error number hvalidate] at hcreate
        cases hcreate
  · intro e
    constructor
    · exact World.create_of_error number
    · intro hcreate
      cases hvalidate : c.validate with
      | ok =>
        obtain ⟨w, hw⟩ := World.create_of_validate (T := T) (V := V) number hvalidate
        rw [hw] at hcreate
        cases hcreate
      | error e' =>
        rw [World.create_of_error number hvalidate] at hcreate
        cases hcreate
        rfl
  · intro format hformat
    exact (IdFormat.create_valid hformat).flagsFree

/-- Settings at their limits: chunks of 2 ^ 24 rows, of which the ids have room for 64, and a
registry that may grow from the least width to the greatest. -/
theorem World.create_iff_validate_limits :
    (⟨24, some 1000, 1, 30, 0⟩ : Settings).validate = .ok () ∧
      (⟨24, some 1000, 1, 30, 0⟩ : Settings).idFormat = .ok ⟨24, 64⟩ ∧
      (⟨24, 64⟩ : IdFormat).FlagsFree ∧
      ∃ w : World Nat Nat, World.create 0 ⟨24, some 1000, 1, 30, 0⟩ = .ok w := by
  have hvalidate : (⟨24, some 1000, 1, 30, 0⟩ : Settings).validate = .ok () := by decide
  have hformat : (⟨24, some 1000, 1, 30, 0⟩ : Settings).idFormat = .ok ⟨24, 64⟩ := by decide
  obtain ⟨-, hcreate, -, hfree⟩ :=
    World.create_iff_validate (T := Nat) (V := Nat) 0 ⟨24, some 1000, 1, 30, 0⟩
  exact ⟨hvalidate, hformat, hfree _ hformat, hcreate.mp hvalidate⟩

end ArchetypeStore

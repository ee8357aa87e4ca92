import ArchetypeStore.TypeRegistry
import ArchetypeStore.SlotId

/-! # Settings

  The settings of a store, their defaults and their limits. `validate` names the first
  setting that is out of range; `idFormat` and `registry` build what the settings
  describe, each with checks of its own.
-/

namespace ArchetypeStore

/-- Settings of a store. -/
structure Settings where
  /-- Each chunk has `2 ^ rowBits` rows. -/
  rowBits : UInt32
  /-- A limit on chunks below the one that the ids set. -/
  maxChunks : Option UInt64
  /-- Width of the type registry at first. -/
  indexBits : UInt32
  /-- Greatest width of the type registry. -/
  maxIndexBits : UInt32
  /-- How long an outside scheduler may take, in milliseconds. -/
  timeoutMs : UInt64
  deriving DecidableEq

namespace Settings

/-- The settings of a store that nobody configured. -/
def default : Settings := ⟨14, none, 12, 24, 3000⟩

instance : Inhabited Settings := ⟨default⟩

/-! ### Setting -/

/-- Set the row bits. -/
def withRowBits (c : Settings) (bits : UInt32) : Settings := { c with rowBits := bits }

/-- Set the limit on chunks. -/
def withMaxChunks (c : Settings) (limit : UInt64) : Settings := { c with maxChunks := some limit }

/-- Set both widths of the type registry. -/
def withIndexBits (c : Settings) (bits maxBits : UInt32) : Settings :=
  { c with indexBits := bits, maxIndexBits := maxBits }

/-- Set the timeout. Parts of a millisecond are cut off, and a timeout that does not fit
becomes the longest one. -/
def withTimeout (c : Settings) (seconds nanoseconds : Nat) : Settings :=
  { c with
    timeoutMs :=
      UInt64.ofNat (min ((seconds * 1000000000 + nanoseconds) / 1000000) ((1 <<< 64) - 1)) }

/-- The timeout in seconds and nanoseconds. -/
def timeout (c : Settings) : Nat × Nat :=
  (c.timeoutMs.toNat / 1000, c.timeoutMs.toNat % 1000 * 1000000)

/-! ### Checking -/

/-- The error for a setting outside its limits. -/
def outside (name : String) (value low high : Nat) : StoreError :=
  .invalidConfig (name ++ " " ++ toString value ++ " outside " ++ toString low ++ "..=" ++
    toString high)

/-- Check every setting; the first that is out of range decides the error. -/
def validate (c : Settings) : Except StoreError Unit :=
  if c.rowBits.toNat < IdFormat.minRowBits ∨ IdFormat.maxRowBits < c.rowBits.toNat then
    .error (outside "chunk_bit" c.rowBits.toNat IdFormat.minRowBits IdFormat.maxRowBits)
  else if c.maxChunks = some 0 then
    .error (.invalidConfig "max_chunks must be at least 1")
  else if c.indexBits.toNat < TypeRegistry.minBits ∨
      TypeRegistry.maxBits < c.indexBits.toNat then
    .error (outside "class_index_bit" c.indexBits.toNat TypeRegistry.minBits
      TypeRegistry.maxBits)
  else if c.maxIndexBits.toNat < c.indexBits.toNat ∨
      TypeRegistry.maxBits < c.maxIndexBits.toNat then
    .error (outside "class_index_max_bit" c.maxIndexBits.toNat c.indexBits.toNat
      TypeRegistry.maxBits)
  else .ok ()

/-- The id format of these settings. -/
def idFormat (c : Settings) : Except StoreError IdFormat :=
  IdFormat.create c.rowBits.toNat (c.maxChunks.map UInt64.toNat)

/-- The empty type registry of these settings. -/
def registry {T : Type} (c : Settings) : Except StoreError (TypeRegistry T) :=
  TypeRegistry.create c.indexBits.toNat c.maxIndexBits.toNat

/-! ### Showing -/

/-- The settings on one line, for logs. -/
def describe (c : Settings) : String :=
  Text.record "EngineConfig"
    [("chunk_bit", toString c.rowBits.toNat),
      ("max_chunks", Text.optional (c.maxChunks.map fun n => toString n.toNat)),
      ("class_index_bit", toString c.indexBits.toNat),
      ("class_index_max_bit", toString c.maxIndexBits.toNat),
      ("system_timeout_ms", toString c.timeoutMs.toNat)]

end Settings

end ArchetypeStore

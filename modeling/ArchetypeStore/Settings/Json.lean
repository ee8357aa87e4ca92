import ArchetypeStore.Json.Document
import ArchetypeStore.Settings.Codec

/-! # A codec for settings

  Settings are written as an object with one member to a line. They are read from an
  object, where unknown members are passed over and missing members keep their defaults, or
  from an array of the settings in their order, which may end early.
-/

namespace ArchetypeStore.Settings

/-! ### Reading -/

/-- A natural number below `bound`. -/
def naturalBelow (bound : Nat) : Json.Scalar → Option Nat
  | .natural n => if n < bound then some n else none
  | _ => none

/-- A 32-bit setting. -/
def word32? (value : Json.Scalar) : Option UInt32 :=
  (naturalBelow (1 <<< 32) value).map UInt32.ofNat

/-- A 64-bit setting. -/
def word64? (value : Json.Scalar) : Option UInt64 :=
  (naturalBelow (1 <<< 64) value).map UInt64.ofNat

/-- A 64-bit setting that may be null. -/
def optionalWord64? : Json.Scalar → Option (Option UInt64)
  | .null => some none
  | value => (word64? value).map some

/-- Read one setting; a missing one keeps its default. -/
def setting? {α : Type} (doc : Json.Document) (position : Nat) (name : String)
    (read : Json.Scalar → Option α) (fallback : α) : Option α := do
  match ← doc.field? position name with
  | none => some fallback
  | some value => read value

/-- The number of settings, the most that an array may hold. -/
def settingCount : Nat := 5

/-- Has the document no more elements than there are settings? -/
def fits : Json.Document → Bool
  | .array elements => elements.length ≤ settingCount
  | .object _ => true

/-- The settings that a document holds. -/
def ofDocument? (doc : Json.Document) : Option Settings :=
  if fits doc then do
    let rowBits ← setting? doc 0 "chunk_bit" word32? default.rowBits
    let maxChunks ← setting? doc 1 "max_chunks" optionalWord64? default.maxChunks
    let indexBits ← setting? doc 2 "class_index_bit" word32? default.indexBits
    let maxIndexBits ←
      setting? doc 3 "class_index_max_bit" word32? default.maxIndexBits
    let timeoutMs ← setting? doc 4 "system_timeout_ms" word64? default.timeoutMs
    return ⟨rowBits, maxChunks, indexBits, maxIndexBits, timeoutMs⟩
  else none

/-! ### The codec -/

/-- The settings as an object, two blanks before each member. -/
def toJson (c : Settings) : String := Json.pretty c.fields

/-- Settings are written by `toJson` and read by way of a document. -/
def codec : Codec :=
  ⟨fun c => some c.toJson, fun text => (Json.Document.parse? text).bind ofDocument?⟩

/-- Read settings with this codec and check them. -/
def ofJson (text : String) : Except ReadError Settings := codec.ofJson text

end ArchetypeStore.Settings

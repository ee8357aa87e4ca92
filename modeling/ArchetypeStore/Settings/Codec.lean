import ArchetypeStore.Json.Spelling
import ArchetypeStore.Settings.Basic

/-! # Settings as JSON

  A library prints settings as JSON and reads them from it. It is a parameter here: a
  `Codec`. What is read is checked before it is handed out. A codec is `Standard` when it
  prints all settings in their order, one to a line, and when it reads every text that
  spells settings; one that is missing has its default.
-/

namespace ArchetypeStore

/-- A library that prints settings and reads them. -/
structure Codec where
  /-- The text of settings; `none` when there is none. -/
  print : Settings → Option String
  /-- The settings of a text; `none` when it does not spell settings. -/
  read : String → Option Settings

namespace Settings

/-- The settings in the order of their declaration, under their names. A number is kept as it
is, and a limit that is missing is null. -/
def fields (c : Settings) : List (String × Json.Value) :=
  [("chunk_bit", some c.rowBits.toNat), ("max_chunks", c.maxChunks.map UInt64.toNat),
    ("class_index_bit", some c.indexBits.toNat),
    ("class_index_max_bit", some c.maxIndexBits.toNat),
    ("system_timeout_ms", some c.timeoutMs.toNat)]

/-- Why settings could not be read from a text. -/
inductive ReadError where
  /-- The text does not spell settings. -/
  | malformed
  /-- The settings were read and then rejected. -/
  | rejected (error : StoreError)
  deriving DecidableEq

/-- The members are these settings. Each name is used once, there may be other names, and a
setting without a member has its default. -/
structure Holds (c : Settings) (members : List (String × Json.Value)) : Prop where
  once : (members.map (·.1)).Nodup
  value : ∀ field ∈ c.fields, members.lookup field.1 = some field.2 ∨
    (members.lookup field.1 = none ∧ field ∈ default.fields)

end Settings

namespace Codec

/-- Write settings. -/
def toJson (codec : Codec) (c : Settings) : Option String := codec.print c

/-- Read settings and check them. -/
def ofJson (codec : Codec) (text : String) : Except Settings.ReadError Settings :=
  match codec.read text with
  | none => .error .malformed
  | some c =>
    match c.validate with
    | .ok () => .ok c
    | .error e => .error (.rejected e)

/-- What is known of the library. -/
structure Standard (codec : Codec) : Prop where
  /-- Settings are printed in their order, one to a line. -/
  pretty : ∀ c, codec.print c = some (Json.pretty c.fields)
  /-- A text that spells settings is read as these settings. -/
  reads : ∀ (c : Settings) (members : List (String × Json.Value)) (text : String),
    Json.Spells members text → c.Holds members → codec.read text = some c

end Codec

end ArchetypeStore

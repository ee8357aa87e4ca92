import ArchetypeStore.Text.Record

/-! # Component values

  The values that come with the store. Programs that need others bring their own type;
  nothing in the store looks into a value.
-/

namespace ArchetypeStore

/-- A component value. -/
inductive Value where
  /-- A whole number of any width. -/
  | integer (n : Int)
  /-- A truth value. -/
  | boolean (b : Bool)
  /-- The value without content. -/
  | unit
  /-- A text. -/
  | text (s : String)
  /-- A list of whole numbers. -/
  | integers (ns : List Int)
  /-- Two whole numbers. -/
  | pair (a b : Int)
  /-- A text with the number under which it was made, so that copies can be told apart. -/
  | numbered (serial : Nat) (s : String)
  deriving DecidableEq

/-- The value on one line, for logs. -/
def Value.describe : Value → String
  | integer n => toString n
  | boolean b => toString b
  | unit => Text.tuple []
  | text s => Text.quote s
  | integers ns => Text.list (ns.map toString)
  | pair a b => Text.tuple [toString a, toString b]
  | numbered _ s => Text.quote s

end ArchetypeStore

import ArchetypeStore.Json.Token

/-! # Documents

  A document is the outermost level of a JSON text: the members of an object or the
  elements of an array. Of a value inside it is kept whether it is null or a natural
  number; any other value is checked for its form and then counts as `other`, however
  deep it is nested.
-/

namespace ArchetypeStore.Json

/-- What is kept of a value inside a document. -/
inductive Scalar where
  | null
  | natural (value : Nat)
  | other
  deriving DecidableEq

/-- The outermost level of a text. -/
inductive Document where
  /-- The members of an object, in text order. -/
  | object (members : List (String × Scalar))
  /-- The elements of an array. -/
  | array (elements : List Scalar)
  deriving DecidableEq

/-! ### Keys -/

/-- Is the number the first half of a character? -/
def isHighHalf (n : Nat) : Bool := 0xd800 ≤ n && n < 0xdc00

/-- Is the number the second half of a character? -/
def isLowHalf (n : Nat) : Bool := 0xdc00 ≤ n && n < 0xe000

/-- The characters of a string; `none` when half of a character stands alone. -/
def chars? : List Piece → Option (List Char)
  | [] => some []
  | .char c :: rest => (chars? rest).map (c :: ·)
  | .unit n :: rest =>
    if isLowHalf n then none
    else if isHighHalf n then
      match rest with
      | .unit m :: rest =>
        if isLowHalf m then
          (chars? rest).map
            (Char.ofNat (0x10000 + (n - 0xd800) * 0x400 + (m - 0xdc00)) :: ·)
        else none
      | _ => none
    else (chars? rest).map (Char.ofNat n :: ·)

/-! ### Reader -/

/-- The two kinds of bracket. -/
inductive Frame where
  | object
  | array
  deriving DecidableEq

/-- What may come next. -/
inductive Expect where
  /-- A value. -/
  | value
  /-- A value, or the end of an array. -/
  | valueOrEnd
  /-- A key. -/
  | key
  /-- A key, or the end of an object. -/
  | keyOrEnd
  /-- The colon behind a key. -/
  | colon
  /-- A comma, or the end of the innermost bracket. -/
  | commaOrEnd
  deriving DecidableEq

/-- The reader of a document. -/
structure Reader where
  /-- Brackets that are open, innermost first. -/
  frames : List Frame
  /-- What may come next. -/
  expect : Expect
  /-- The key of the current member of the outermost level. -/
  key : String
  /-- Members read on the outermost level, last first; elements have an empty key. -/
  entries : List (String × Scalar)
  /-- The kind of the outermost bracket, once it is closed. -/
  closed : Option Frame
  deriving DecidableEq

namespace Reader

/-- The reader before the first token. -/
def start : Reader := ⟨[], .value, "", [], none⟩

/-- A value has ended. On the outermost level it is kept. -/
def ended (r : Reader) (value : Scalar) : Option Reader :=
  match r.frames with
  | [] => none
  | [_] => some { r with expect := .commaOrEnd, entries := (r.key, value) :: r.entries }
  | _ => some { r with expect := .commaOrEnd }

/-- A bracket opens. -/
def opened (r : Reader) (frame : Frame) : Reader :=
  { r with
    frames := frame :: r.frames
    expect := match frame with
      | .object => .keyOrEnd
      | .array => .valueOrEnd }

/-- The innermost bracket closes. -/
def close (r : Reader) (frame : Frame) : Option Reader :=
  match r.frames with
  | [] => none
  | [outer] => if outer = frame then some { r with frames := [], closed := some frame } else none
  | inner :: rest =>
    if inner = frame then { r with frames := rest }.ended .other else none

/-- A key on the outermost level has to be whole; deeper keys are not looked at. -/
def keyed (r : Reader) (pieces : List Piece) : Option Reader :=
  match r.frames with
  | [_] => (chars? pieces).map fun key =>
      { r with expect := .colon, key := String.ofList key }
  | _ => some { r with expect := .colon }

/-- A token where a value is expected. -/
def value (r : Reader) : Token → Option Reader
  | .openBrace => some (r.opened .object)
  | .openBracket => some (r.opened .array)
  | .null => r.ended .null
  | .natural n => r.ended (.natural n)
  | .boolean _ | .otherNumber | .string _ => r.ended .other
  | _ => none

/-- Read one token; `none` when no document continues this way. -/
def step (r : Reader) (token : Token) : Option Reader :=
  if r.closed.isSome then none
  else
    match r.expect, token with
    | .value, token => r.value token
    | .valueOrEnd, .closeBracket => r.close .array
    | .valueOrEnd, token => r.value token
    | .key, .string pieces => r.keyed pieces
    | .keyOrEnd, .closeBrace => r.close .object
    | .keyOrEnd, .string pieces => r.keyed pieces
    | .colon, .colon => some { r with expect := .value }
    | .commaOrEnd, .closeBrace => r.close .object
    | .commaOrEnd, .closeBracket => r.close .array
    | .commaOrEnd, .comma =>
      match r.frames with
      | .object :: _ => some { r with expect := .key }
      | .array :: _ => some { r with expect := .value }
      | [] => none
    | _, _ => none

/-- The document, if the text may end here. -/
def finish (r : Reader) : Option Document :=
  match r.closed with
  | some .object => some (.object r.entries.reverse)
  | some .array => some (.array (r.entries.reverse.map (·.2)))
  | none => none

/-- Read tokens in turn. -/
def run (r : Reader) (tokens : List Token) : Option Reader := tokens.foldlM step r

end Reader

namespace Document

/-- The document that the tokens spell. -/
def ofTokens? (tokens : List Token) : Option Document := do
  (← Reader.start.run tokens).finish

/-- The document that a text spells. -/
def parse? (text : String) : Option Document := do
  ofTokens? (← tokens? text)

/-- The value of a field that is named in an object, or stands at a position in an array.
The outer `none` is for a field that is named twice, the inner for one that is missing. -/
def field? (doc : Document) (position : Nat) (name : String) : Option (Option Scalar) :=
  match doc with
  | .array elements => some elements[position]?
  | .object members =>
    match members.filter (·.1 == name) with
    | [] => some none
    | [member] => some (some member.2)
    | _ => none

end Document

end ArchetypeStore.Json

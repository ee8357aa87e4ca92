/-! # Tokens of a JSON text

  The scanner reads one character at a time. Its mode is what it is in the middle of: a
  word, a number, a string, or nothing. A number ends at the first character that cannot
  continue it. Escapes for half a character are kept as they are, since only the strings
  that someone looks at have to be whole.
-/

namespace ArchetypeStore.Json

/-- A piece of a string: a character, or the 16-bit number of an escape. -/
inductive Piece where
  /-- A character written as itself or by a short escape. -/
  | char (c : Char)
  /-- A numbered escape, perhaps half of a character. -/
  | unit (n : Nat)
  deriving DecidableEq

/-- The smallest parts of a text. -/
inductive Token where
  | openBrace
  | closeBrace
  | openBracket
  | closeBracket
  | colon
  | comma
  | null
  | boolean (value : Bool)
  /-- A number written with digits alone. -/
  | natural (value : Nat)
  /-- A number with a sign, a fraction or an exponent. -/
  | otherNumber
  /-- A string with its escapes read. -/
  | string (pieces : List Piece)
  deriving DecidableEq

/-! ### Scanner -/

/-- What the scanner is in the middle of. Pieces of a string are kept last first. -/
inductive Mode where
  /-- Between two tokens. -/
  | between
  /-- In a word; these letters are still to come. -/
  | word (missing : List Char) (token : Token)
  /-- Behind a minus sign. -/
  | minus
  /-- Behind a leading zero. -/
  | zero (negative : Bool)
  /-- In the digits of an integer. -/
  | integer (negative : Bool) (value : Nat)
  /-- Behind a decimal point. -/
  | point
  /-- In the digits of a fraction. -/
  | fraction
  /-- Behind the letter of an exponent. -/
  | exponent
  /-- Behind the sign of an exponent. -/
  | exponentSign
  /-- In the digits of an exponent. -/
  | exponentDigits
  /-- In a string. -/
  | text (pieces : List Piece)
  /-- Behind a backslash. -/
  | escape (pieces : List Piece)
  /-- In a numbered escape; so many digits are still to come. -/
  | escapeDigits (pieces : List Piece) (missing : Nat) (value : Nat)
  deriving DecidableEq

/-- The scanner: its mode and the tokens read so far, last first. -/
structure Scanner where
  /-- What it is in the middle of. -/
  mode : Mode
  /-- Tokens read, last first. -/
  tokens : List Token
  deriving DecidableEq

namespace Scanner

/-- The scanner before the first character. -/
def start : Scanner := ⟨.between, []⟩

/-- Stay between tokens, with one token more. -/
def emit (tokens : List Token) (token : Token) : Scanner := ⟨.between, token :: tokens⟩

/-- Is the character a decimal digit? -/
def isDigit (c : Char) : Bool := '0' ≤ c && c ≤ '9'

/-- The value of a decimal digit. -/
def digitValue (c : Char) : Nat := c.toNat - '0'.toNat

/-- The value of a digit in base sixteen, either case. -/
def hexValue? (c : Char) : Option Nat :=
  if isDigit c then some (digitValue c)
  else if 'a' ≤ c && c ≤ 'f' then some (c.toNat - 'a'.toNat + 10)
  else if 'A' ≤ c && c ≤ 'F' then some (c.toNat - 'A'.toNat + 10)
  else none

/-- The four characters that may stand between tokens. -/
def isBlank (c : Char) : Bool := c == ' ' || c == '\n' || c == '\t' || c == '\r'

/-- A character between two tokens. -/
def begin (tokens : List Token) (c : Char) : Option Scanner :=
  if isBlank c then some ⟨.between, tokens⟩
  else if c = '\x7b' then some (emit tokens .openBrace)
  else if c = '\x7d' then some (emit tokens .closeBrace)
  else if c = '[' then some (emit tokens .openBracket)
  else if c = ']' then some (emit tokens .closeBracket)
  else if c = ':' then some (emit tokens .colon)
  else if c = ',' then some (emit tokens .comma)
  else if c = '"' then some ⟨.text [], tokens⟩
  else if c = 'n' then some ⟨.word ['u', 'l', 'l'] .null, tokens⟩
  else if c = 't' then some ⟨.word ['r', 'u', 'e'] (.boolean true), tokens⟩
  else if c = 'f' then some ⟨.word ['a', 'l', 's', 'e'] (.boolean false), tokens⟩
  else if c = '-' then some ⟨.minus, tokens⟩
  else if c = '0' then some ⟨.zero false, tokens⟩
  else if isDigit c then some ⟨.integer false (digitValue c), tokens⟩
  else none

/-- The token of an integer. -/
def integerToken (negative : Bool) (value : Nat) : Token :=
  if negative then .otherNumber else .natural value

/-- The character behind the integer part of a number. -/
def afterInteger (negative : Bool) (value : Nat) (tokens : List Token) (c : Char) :
    Option Scanner :=
  if c = '.' then some ⟨.point, tokens⟩
  else if c = 'e' ∨ c = 'E' then some ⟨.exponent, tokens⟩
  else begin (integerToken negative value :: tokens) c

/-- The piece that a short escape stands for. -/
def shortEscape? (c : Char) : Option Piece :=
  if c = '"' ∨ c = '\\' ∨ c = '/' then some (.char c)
  else if c = 'b' then some (.char '\x08')
  else if c = 'f' then some (.char '\x0c')
  else if c = 'n' then some (.char '\n')
  else if c = 'r' then some (.char '\r')
  else if c = 't' then some (.char '\t')
  else none

/-- Read one character; `none` when no text continues this way. -/
def step (s : Scanner) (c : Char) : Option Scanner :=
  match s.mode with
  | .between => begin s.tokens c
  | .word [] _ => none
  | .word [l] token => if c = l then some (emit s.tokens token) else none
  | .word (l :: ls) token => if c = l then some ⟨.word ls token, s.tokens⟩ else none
  | .minus =>
    if c = '0' then some ⟨.zero true, s.tokens⟩
    else if isDigit c then some ⟨.integer true (digitValue c), s.tokens⟩
    else none
  | .zero negative => if isDigit c then none else afterInteger negative 0 s.tokens c
  | .integer negative value =>
    if isDigit c then some ⟨.integer negative (10 * value + digitValue c), s.tokens⟩
    else afterInteger negative value s.tokens c
  | .point => if isDigit c then some ⟨.fraction, s.tokens⟩ else none
  | .fraction =>
    if isDigit c then some s
    else if c = 'e' ∨ c = 'E' then some ⟨.exponent, s.tokens⟩
    else begin (.otherNumber :: s.tokens) c
  | .exponent =>
    if isDigit c then some ⟨.exponentDigits, s.tokens⟩
    else if c = '+' ∨ c = '-' then some ⟨.exponentSign, s.tokens⟩
    else none
  | .exponentSign => if isDigit c then some ⟨.exponentDigits, s.tokens⟩ else none
  | .exponentDigits =>
    if isDigit c then some s else begin (.otherNumber :: s.tokens) c
  | .text pieces =>
    if c = '"' then some (emit s.tokens (.string pieces.reverse))
    else if c = '\\' then some ⟨.escape pieces, s.tokens⟩
    else if c.toNat < 0x20 then none
    else some ⟨.text (.char c :: pieces), s.tokens⟩
  | .escape pieces =>
    if c = 'u' then some ⟨.escapeDigits pieces 4 0, s.tokens⟩
    else (shortEscape? c).map fun piece => ⟨.text (piece :: pieces), s.tokens⟩
  | .escapeDigits pieces missing value =>
    match hexValue? c with
    | none => none
    | some digit =>
      if missing ≤ 1 then some ⟨.text (.unit (16 * value + digit) :: pieces), s.tokens⟩
      else some ⟨.escapeDigits pieces (missing - 1) (16 * value + digit), s.tokens⟩

/-- The tokens in text order, if the text may end here. -/
def finish (s : Scanner) : Option (List Token) :=
  match s.mode with
  | .between => some s.tokens.reverse
  | .zero negative => some (integerToken negative 0 :: s.tokens).reverse
  | .integer negative value => some (integerToken negative value :: s.tokens).reverse
  | .fraction | .exponentDigits => some (Token.otherNumber :: s.tokens).reverse
  | _ => none

/-- Read characters in turn. -/
def run (s : Scanner) (text : List Char) : Option Scanner := text.foldlM step s

end Scanner

/-- The tokens of a text, if it consists of tokens. -/
def tokens? (text : String) : Option (List Token) := do
  (← Scanner.start.run text.toList).finish

end ArchetypeStore.Json

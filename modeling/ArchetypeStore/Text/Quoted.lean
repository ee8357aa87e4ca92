import ArchetypeStore.Text.Extending
import ArchetypeStore.Text.Unprintable

/-! # Quoted text

  Text is written between double quotes. A quote, a backslash and every character that
  cannot be seen by itself is replaced by an escape, so a quoted text is always one line,
  its end is unambiguous, and all of its characters can be told apart.
-/

namespace ArchetypeStore.Text

/-- The digits of `n` in base sixteen, lower case. -/
def hexDigits (n : Nat) : String := String.ofList (Nat.toDigits 16 n)

/-- `n` in base sixteen behind `0x`. -/
def hex (n : Nat) : String := "0x" ++ hexDigits n

/-- How one character is written inside quotes. -/
def escapeChar (c : Char) : String :=
  if c = '"' then "\\\""
  else if c = '\\' then "\\\\"
  else if c = '\t' then "\\t"
  else if c = '\n' then "\\n"
  else if c = '\r' then "\\r"
  else if c = '\x00' then "\\0"
  else if isExtending c || isUnprintable c then "\\u\x7b" ++ hexDigits c.toNat ++ "\x7d"
  else String.singleton c

/-- `s` between quotes, with escapes. -/
def quote (s : String) : String :=
  "\"" ++ String.join (s.toList.map escapeChar) ++ "\""

end ArchetypeStore.Text

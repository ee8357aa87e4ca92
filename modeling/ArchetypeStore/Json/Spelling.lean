/-! # Spelling of objects

  What texts of standard JSON spell an object whose values are natural numbers or null. There
  may be blanks in front of every part and behind it. A printer chooses one of these texts:
  the pretty one has a line for each member.
-/

namespace ArchetypeStore.Json

/-- The value of a member: a natural number, or `none` for null. -/
abbrev Value := Option Nat

/-- A number is spelled in decimal. -/
def valueText : Value → String
  | none => "null"
  | some n => toString n

/-! ### All spellings -/

/-- Spaces, tabs and ends of lines. -/
def IsBlank (c : Char) : Prop := c = ' ' ∨ c = '\n' ∨ c = '\t' ∨ c = '\r'

/-- The text may stand between two parts. -/
def Blanks (text : List Char) : Prop := ∀ c ∈ text, IsBlank c

/-- The character stands for itself in a string. -/
def IsPlain (c : Char) : Prop := c ≠ '"' ∧ c ≠ '\\' ∧ 0x20 ≤ c.toNat

/-- The text can be put between quotation marks as it is. -/
def Plain (text : String) : Prop := ∀ c ∈ text.toList, IsPlain c

/-- The text spells a member: the name, a colon and the value. -/
inductive SpellsMember (m : String × Value) : List Char → Prop where
  | spelled {first second third fourth : List Char} (plain : Plain m.1)
      (inFront : Blanks first) (behindName : Blanks second) (inFrontOfValue : Blanks third)
      (behind : Blanks fourth) :
      SpellsMember m (first ++ '"' :: (m.1.toList ++ '"' :: (second ++ ':' ::
        (third ++ ((valueText m.2).toList ++ fourth)))))

/-- The text spells members, with commas between them. -/
inductive SpellsMembers : String × Value → List (String × Value) → List Char → Prop where
  | last {m : String × Value} {text : List Char} (member : SpellsMember m text) :
      SpellsMembers m [] text
  | more {m next : String × Value} {rest : List (String × Value)} {text texts : List Char}
      (member : SpellsMember m text) (others : SpellsMembers next rest texts) :
      SpellsMembers m (next :: rest) (text ++ ',' :: texts)

/-- The text spells an object with these members. -/
inductive Spells : List (String × Value) → String → Prop where
  | object {m : String × Value} {rest : List (String × Value)} {text : String}
      {first inside last : List Char} (inFront : Blanks first)
      (members : SpellsMembers m rest inside) (behind : Blanks last)
      (text_eq : text.toList = first ++ '\x7b' :: (inside ++ '\x7d' :: last)) :
      Spells (m :: rest) text

/-! ### The pretty one -/

/-- A member on a line of its own. -/
def line (m : String × Value) : String := "\n  \"" ++ m.1 ++ "\": " ++ valueText m.2

/-- The lines of a member and of those behind it. -/
def lines (m : String × Value) : List (String × Value) → String
  | [] => line m ++ "\n"
  | next :: rest => line m ++ "," ++ lines next rest

/-- An object with one member to a line. -/
def pretty : List (String × Value) → String
  | [] => "\x7b\x7d"
  | m :: rest => "\x7b" ++ lines m rest ++ "\x7d"

end ArchetypeStore.Json

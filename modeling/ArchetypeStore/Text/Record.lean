import ArchetypeStore.Text.Quoted

/-! # Record text

  The one-line form in which structured data is shown in logs: records with named fields
  between braces, constructors and tuples with their parts between parentheses, lists
  between brackets. Parts are separated by a comma and a blank.
-/

namespace ArchetypeStore.Text

/-- Parts with a comma and a blank between them. -/
def commaSeparated (parts : List String) : String := ", ".intercalate parts

/-- A named record; a record without fields is its name alone. -/
def record (name : String) (fields : List (String × String)) : String :=
  if fields.isEmpty then name
  else name ++ " \x7b " ++
    commaSeparated (fields.map fun field => field.1 ++ ": " ++ field.2) ++ " \x7d"

/-- A constructor applied to its parts. -/
def applied (name : String) (parts : List String) : String :=
  name ++ "(" ++ commaSeparated parts ++ ")"

/-- A tuple; a single part keeps a comma behind it. -/
def tuple : List String → String
  | [part] => "(" ++ part ++ ",)"
  | parts => "(" ++ commaSeparated parts ++ ")"

/-- A list of parts. -/
def list (parts : List String) : String := "[" ++ commaSeparated parts ++ "]"

/-- A part that may be missing. -/
def optional : Option String → String
  | none => "None"
  | some part => applied "Some" [part]

end ArchetypeStore.Text

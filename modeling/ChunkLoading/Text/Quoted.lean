import ChunkLoading.Text.Numeral
import ChunkLoading.Text.Printable

/-!
# Quoted text

How values show in descriptions: strings between double quotes with everything that would not
show as itself escaped, lists in brackets, optional values marked.
-/

namespace ChunkLoading.Quoted

/-- The form of one character inside quotes. -/
def escapeChar (c : Char) : List Char :=
  if c = '"' then ['\\', '"']
  else if c = '\\' then ['\\', '\\']
  else if c = '\n' then ['\\', 'n']
  else if c = '\r' then ['\\', 'r']
  else if c = '\t' then ['\\', 't']
  else if c.toNat = 0 then ['\\', '0']
  else if Printable.isPrintable c then [c]
  else ['\\', 'u', '{'] ++ Numeral.hexDigits c.toNat ++ ['}']

/-- A string between quotes. -/
def string (s : String) : String :=
  String.ofList ('"' :: (s.toList.flatMap escapeChar ++ ['"']))

/-- A list in brackets. -/
def list {α : Type} (item : α → String) (xs : List α) : String :=
  "[" ++ ", ".intercalate (xs.map item) ++ "]"

/-- An optional value. -/
def option {α : Type} (item : α → String) : Option α → String
  | none => "None"
  | some x => "Some(" ++ item x ++ ")"

/-- A record with its fields, each shown already. -/
def record (name : String) (fields : List (String × String)) : String :=
  name ++ " \x7b " ++ ", ".intercalate (fields.map fun f => f.1 ++ ": " ++ f.2) ++ " \x7d"

end ChunkLoading.Quoted

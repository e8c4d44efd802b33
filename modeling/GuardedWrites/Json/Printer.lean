import GuardedWrites.Decimal.Style
import GuardedWrites.Json.Value
import GuardedWrites.Text.Hex

/-!
# Printing JSON

Values are printed without blanks, members in the order in which they stand. In strings, quotes,
backslashes and controls are escaped and everything else stands for itself.
-/

namespace GuardedWrites

/-- How a character is written inside a string. -/
def Json.escapedChar (c : Char) : List Char :=
  if c = '"' then ['\\', '"']
  else if c = '\\' then ['\\', '\\']
  else if c = '\n' then ['\\', 'n']
  else if c = '\r' then ['\\', 'r']
  else if c = '\t' then ['\\', 't']
  else if c.toNat = 8 then ['\\', 'b']
  else if c.toNat = 12 then ['\\', 'f']
  else if c.toNat < 32 then ['\\', 'u'] ++ Text.hexPadded 4 c.toNat
  else [c]

/-- A text as a string. -/
def Json.renderString (s : String) : String :=
  String.ofList ('"' :: s.toList.flatMap escapedChar ++ ['"'])

/-- A number in its own kind. -/
def Number.render : Number → String
  | .natural n => toString n
  | .negative n => toString n
  | .real x => Decimal.Style.json.write x

mutual

/-- The compact text of a value. -/
def Json.render : Json → String
  | .null => "null"
  | .bool b => if b then "true" else "false"
  | .num n => n.render
  | .str s => renderString s
  | .arr items => "[" ++ renderItems items ++ "]"
  | .obj members => "\x7b" ++ renderMembers members ++ "\x7d"

/-- Items with commas between them. -/
def Json.renderItems : List Json → String
  | [] => ""
  | [v] => v.render
  | v :: w :: rest => v.render ++ "," ++ renderItems (w :: rest)

/-- Members with commas between them. -/
def Json.renderMembers : List (String × Json) → String
  | [] => ""
  | [(name, v)] => renderString name ++ ":" ++ v.render
  | (name, v) :: w :: rest =>
    renderString name ++ ":" ++ v.render ++ "," ++ renderMembers (w :: rest)

end

end GuardedWrites

import GuardedWrites.Text.Hidden
import GuardedWrites.Text.Hex

/-!
# Quoted texts in messages

A text is shown between double quotes. Quotes and backslashes are escaped, the usual controls have
letters, and any other character that cannot be seen is shown by its code.
-/

namespace GuardedWrites.Text

/-- How a character is shown inside quotes. -/
def quotedChar (c : Char) : List Char :=
  if c = '"' then ['\\', '"']
  else if c = '\\' then ['\\', '\\']
  else if c = '\n' then ['\\', 'n']
  else if c = '\r' then ['\\', 'r']
  else if c = '\t' then ['\\', 't']
  else if c.toNat = 0 then ['\\', '0']
  else if c.toNat < 32 || c.toNat = 127 || isHidden c then
    "\\u\x7b".toList ++ Nat.toDigits 16 c.toNat ++ ['\x7d']
  else [c]

/-- A text between double quotes. -/
def quoted (s : String) : String := String.ofList ('"' :: s.toList.flatMap quotedChar ++ ['"'])

end GuardedWrites.Text

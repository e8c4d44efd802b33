/-!
# Finding a fragment in any case

The lower case of a character holds an ASCII letter only for the capital letters of ASCII, for the
Kelvin sign and for the capital I with a dot, which becomes an i and a combining dot. Every other
character can be kept as it is when an ASCII fragment is looked for.
-/

namespace GuardedWrites.Text

/-- The lower case of a character, as far as letters of ASCII occur in it. -/
def foldChar (c : Char) : List Char :=
  if 'A' ≤ c ∧ c ≤ 'Z' then [Char.ofNat (c.toNat + 32)]
  else if c.toNat = 0x212a then ['k']
  else if c.toNat = 0x130 then ['i', Char.ofNat 0x307]
  else [c]

/-- A text with the capitals that matter for ASCII fragments lowered. -/
def fold (s : String) : List Char := s.toList.flatMap foldChar

/-- Whether `part` occurs in `whole` without gaps. -/
def occursIn (part : List Char) : List Char → Bool
  | [] => part.isEmpty
  | c :: cs => part.isPrefixOf (c :: cs) || occursIn part cs

end GuardedWrites.Text

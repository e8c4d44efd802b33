/-!
# Reading numbers with a fraction

`Numeral.parse?` reads a decimal numeral and gives the nearest binary64 number. A numeral has an
optional sign, digits with at most one point and at least one digit, and an optional exponent; the
words `inf`, `infinity` and `nan` are read in any case.
-/

namespace GuardedWrites.Decimal

/-- The value of a list of decimal digits. -/
def digitsValue (ds : List Char) : Nat := ds.foldl (fun n c => 10 * n + (c.toNat - 48)) 0

/-- Leading digits and the rest. -/
def spanDigits (cs : List Char) : List Char × List Char := cs.span Char.isDigit

/-- The number nearest to `n * 10 ^ e`. Beyond the range of binary64 the exponent alone decides. -/
def nearestFloat (n : Nat) (e : Int) : Float :=
  let size : Int := (toString n).length
  if n = 0 then 0.0
  else if 310 < size + e then 1.0 / 0.0
  else if size + e < -330 then 0.0
  else if 0 ≤ e then Float.ofScientific n false e.toNat
  else Float.ofScientific n true (-e).toNat

/-- The exponent part of a numeral, which must use up the text. -/
def parseExponent? : List Char → Option Int
  | [] => some 0
  | c :: cs =>
    if c = 'e' ∨ c = 'E' then
      let (negative, ds) := match cs with
        | '-' :: r => (true, r)
        | '+' :: r => (false, r)
        | r => (false, r)
      if ds.isEmpty || !ds.all Char.isDigit then none
      else some (if negative then -(digitsValue ds : Int) else digitsValue ds)
    else none

/-- A numeral without its sign. -/
def parseUnsigned? (cs : List Char) : Option Float :=
  let word := (String.ofList cs).toLower
  if word = "inf" ∨ word = "infinity" then some (1.0 / 0.0)
  else if word = "nan" then some (0.0 / 0.0)
  else
    let (whole, rest) := spanDigits cs
    let (fraction, tail) := match rest with
      | '.' :: r => spanDigits r
      | r => ([], r)
    if whole.isEmpty && fraction.isEmpty then none
    else (parseExponent? tail).map fun e =>
      nearestFloat (digitsValue (whole ++ fraction)) (e - fraction.length)

/-- The number that a text writes. -/
def parseNumeral? (text : String) : Option Float :=
  match text.toList with
  | '-' :: r => (parseUnsigned? r).map fun x => -x
  | '+' :: r => parseUnsigned? r
  | r => parseUnsigned? r

end GuardedWrites.Decimal

/-!
# Hexadecimal digits

Writing and reading numbers and bytes in lower-case hexadecimal.
-/

namespace GuardedWrites.Text

/-- The lower-case digit of a value below sixteen. -/
def hexDigit (n : Nat) : Char := Char.ofNat (if n < 10 then 48 + n else 87 + n)

/-- The value of a hexadecimal digit of either case. -/
def hexValue? (c : Char) : Option Nat :=
  let n := c.toNat
  if 48 ≤ n ∧ n ≤ 57 then some (n - 48)
  else if 97 ≤ n ∧ n ≤ 102 then some (n - 87)
  else if 65 ≤ n ∧ n ≤ 70 then some (n - 55)
  else none

/-- A number in exactly `width` digits, the high ones cut off. -/
def hexPadded : Nat → Nat → List Char
  | 0, _ => []
  | width + 1, n => hexPadded width (n / 16) ++ [hexDigit (n % 16)]

/-- A number without leading zeros. -/
def hex (n : Nat) : String := String.ofList (Nat.toDigits 16 n)

/-- The number that a list of digits writes. -/
def parseHex? (cs : List Char) : Option Nat :=
  cs.foldlM (fun n c => (hexValue? c).map (16 * n + ·)) 0

/-- Bytes as two digits each. -/
def hexBytes (bs : List UInt8) : String := String.ofList (bs.flatMap fun b => hexPadded 2 b.toNat)

/-- The bytes that pairs of digits write. -/
def parseHexBytes? : List Char → Option (List UInt8)
  | [] => some []
  | [_] => none
  | a :: b :: r => do
    let high ← hexValue? a
    let low ← hexValue? b
    let rest ← parseHexBytes? r
    return UInt8.ofNat (16 * high + low) :: rest

end GuardedWrites.Text

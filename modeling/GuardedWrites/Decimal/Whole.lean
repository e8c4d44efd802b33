import GuardedWrites.Decimal.Numeral

/-!
# Reading whole numbers

A whole number is written with an optional sign and at least one digit. `int64?` reads the signed
numbers of 64 bits, `nat64?` and `nat8?` read unsigned numbers, which have no minus sign.
-/

namespace GuardedWrites.Decimal

/-- The number that digits alone write. -/
def digits? (ds : List Char) : Option Nat :=
  if ds.isEmpty || !ds.all Char.isDigit then none else some (digitsValue ds)

/-- The signed number of 64 bits that a text writes. -/
def int64? (text : String) : Option Int := do
  let n : Int ← match text.toList with
    | '-' :: ds => (digits? ds).map fun n => -(n : Int)
    | '+' :: ds => (digits? ds).map Int.ofNat
    | ds => (digits? ds).map Int.ofNat
  if Int64.minValue.toInt ≤ n ∧ n ≤ Int64.maxValue.toInt then some n else none

/-- The number below a limit that a text writes without a minus sign. -/
def natBelow? (limit : Nat) (text : String) : Option Nat := do
  let n ← match text.toList with
    | '+' :: ds => digits? ds
    | ds => digits? ds
  if n < limit then some n else none

/-- The unsigned number of 64 bits that a text writes. -/
def nat64? : String → Option Nat := natBelow? UInt64.size

/-- The unsigned number of 8 bits that a text writes. -/
def nat8? : String → Option Nat := natBelow? UInt8.size

end GuardedWrites.Decimal

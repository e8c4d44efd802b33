/-!
# Binary numbers exactly

Every finite binary64 number is a whole number times a power of two. `Binary.ofFloat?` reads
the three parts off the bits, so that later arithmetic on them is exact.
-/

namespace GuardedWrites.Decimal

/-- The value `significand * 2 ^ exponent`, negated if `negative`. `lowEdge` marks a number whose
neighbour toward zero is only half as far away as its neighbour away from zero. -/
structure Binary where
  negative : Bool
  significand : Nat
  exponent : Int
  lowEdge : Bool

namespace Binary

/-- The leading bit of a significand of full length, which is not written: the 53rd. -/
def hiddenBit : Nat := Nat.pow 2 52

/-- The parts of a finite number; none for an infinity or a value that is not a number. -/
def ofFloat? (x : Float) : Option Binary :=
  let bits := x.toBits.toNat
  let negative := bits / (UInt64.size / 2) == 1
  let biased : Nat := bits / hiddenBit % 2048
  let fraction := bits % hiddenBit
  if biased = 2047 then none
  else if biased = 0 then some ⟨negative, fraction, -1074, false⟩
  else some ⟨negative, hiddenBit + fraction, Int.ofNat biased - 1075, fraction == 0 && 1 < biased⟩

/-- The numerator and denominator of the absolute value times `factor`. -/
def ratio (b : Binary) (factor : Nat) : Nat × Nat :=
  (b.significand * Nat.pow 2 b.exponent.toNat * factor, Nat.pow 2 (-b.exponent).toNat)

end Binary

end GuardedWrites.Decimal

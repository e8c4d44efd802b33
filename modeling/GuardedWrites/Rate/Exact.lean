import GuardedWrites.Rate.Amount

/-!
# Exact amounts of tokens

Tokens counted in fractions instead of binary numbers, so that a bucket loses nothing to rounding.
Only the wait is still rounded, to the nearest nanosecond.
-/

namespace GuardedWrites

/-- The span of an exact number of seconds, zero if it is not positive, cut to the longest span. -/
def Span.ofFraction (x : Rat) : Span := .ofQuotient x.num.toNat x.den

instance : Amount Rat where
  add := Rat.add
  sub := Rat.sub
  mul := Rat.mul
  div := Rat.div
  ofNat n := mkRat n 1
  ofSpan d := mkRat d.nanos nanosPerSecond
  atMost x y := !Rat.blt y x
  smaller x y := if Rat.blt y x then y else x
  larger x y := if Rat.blt x y then y else x
  wholes x := x.floor.toNat
  ceil x := mkRat x.ceil 1
  toSpan := Span.ofFraction
  tolerance := mkRat 1 nanosPerSecond
  isRate := Rat.blt 0
  label x := if x.den = 1 then toString x.num else toString x.num ++ "/" ++ toString x.den

end GuardedWrites

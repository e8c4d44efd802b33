import GuardedWrites.Decimal.Binary
import GuardedWrites.Decimal.Rounding

/-!
# The fewest digits that read back

A decimal reads back as a binary number when it lies in the interval of values that round to
that number; the ends belong to it if the significand is even. The search goes over the grids of
multiples of `10 ^ g`, coarse ones first, and on each grid tests the two neighbours of the value.
The first grid with a hit has the fewest digits; of two hits the nearer one is taken.
-/

namespace GuardedWrites.Decimal

/-- The decimal `digits * 10 ^ exponent`. -/
structure Scientific where
  digits : Nat
  exponent : Int

/-- The values that round to a binary number, as numerators over one denominator. -/
structure Interval where
  low : Nat
  value : Nat
  high : Nat
  den : Nat
  closed : Bool

namespace Interval

/-- The interval of a binary number, every part multiplied by four to stay whole. -/
def ofBinary (b : Binary) : Interval :=
  let scale := Nat.pow 2 (b.exponent - 2).toNat
  { low := (4 * b.significand - if b.lowEdge then 1 else 2) * scale
    value := 4 * b.significand * scale
    high := (4 * b.significand + 2) * scale
    den := Nat.pow 2 (2 - b.exponent).toNat
    closed := b.significand % 2 == 0 }

/-- The interval measured in units of `10 ^ g`. -/
def onGrid (i : Interval) (g : Int) : Interval :=
  let up := Nat.pow 10 (-g).toNat
  { i with
    low := i.low * up, value := i.value * up, high := i.high * up
    den := i.den * Nat.pow 10 g.toNat }

/-- Whether the grid point `c` lies in the interval. -/
def holds (i : Interval) (c : Nat) : Bool :=
  if i.closed then i.low ≤ c * i.den && c * i.den ≤ i.high
  else i.low < c * i.den && c * i.den < i.high

/-- The grid point in the interval that is nearest to the value, if there is one. -/
def nearest? (i : Interval) (tie : Tie) : Option Nat :=
  let below := i.value / i.den
  match i.holds below, i.holds (below + 1) with
  | true, true => some (roundDiv tie i.value i.den)
  | true, false => some below
  | false, true => some (below + 1)
  | false, false => none

/-- The hit on the coarsest of the `fuel` grids from `10 ^ g` downward. -/
def search (i : Interval) (tie : Tie) : Nat → Int → Scientific
  | 0, g => ⟨roundDiv tie (i.onGrid g).value (i.onGrid g).den, g⟩
  | fuel + 1, g =>
    match (i.onGrid g).nearest? tie with
    | some c => ⟨c, g⟩
    | none => i.search tie fuel (g - 1)

end Interval

/-- The shortest decimal that reads back as `b`. Seventeen digits always do, and the search starts
at most two grids above the first digit. -/
def shortest (tie : Tie) (b : Binary) : Scientific :=
  let bits : Int := (b.significand.log2 : Int) + b.exponent + 1
  let top : Int := (bits * 30103).fdiv 100000 + 1
  (Interval.ofBinary b).search tie 20 top

end GuardedWrites.Decimal

import GuardedWrites.Decimal.Style
import GuardedWrites.Decimal.Rounding
import GuardedWrites.Time.Span

/-!
# Amounts of tokens

A token bucket counts in fractions of a token. `Amount` holds what it needs of a number type, so
that one definition of the bucket serves binary numbers, with their roundings, and exact ones.
-/

namespace GuardedWrites

/-- Numbers that count tokens and seconds. -/
class Amount (ν : Type) extends Add ν, Sub ν, Mul ν, Div ν where
  /-- A whole number of tokens. -/
  ofNat : Nat → ν
  /-- The seconds of a span. -/
  ofSpan : Span → ν
  /-- Whether the first is at most the second. -/
  atMost : ν → ν → Bool
  /-- The smaller of two numbers. -/
  smaller : ν → ν → ν
  /-- The larger of two numbers. -/
  larger : ν → ν → ν
  /-- The whole tokens in a number; none below zero. -/
  wholes : ν → Nat
  /-- The least whole number that is not below. -/
  ceil : ν → ν
  /-- Seconds as a span to the nearest nanosecond, zero if not positive, cut to the longest span. -/
  toSpan : ν → Span
  /-- How far below one token still counts as a token. -/
  tolerance : ν
  /-- Whether a number can be a refill rate: positive and finite. -/
  isRate : ν → Bool
  /-- The text of a number in a label. -/
  label : ν → String

/-- The seconds of a span as a binary number: whole seconds and the fraction rounded apart, then
added. -/
def Span.seconds (d : Span) : Float := Float.ofNat d.secs + Float.ofNat d.subsecNanos / 1e9

/-- The span nearest to a positive number of seconds given as a quotient, a half going to the even
side. -/
def Span.ofQuotient (num den : Nat) : Span :=
  .ofNanos (Decimal.roundDiv .toEven (num * nanosPerSecond) den)

/-- The span of a number of seconds, zero if it is not positive, cut to the longest span. -/
def Span.ofSeconds (x : Float) : Span :=
  if x.isNaN || x ≤ 0 then .zero
  else match Decimal.Binary.ofFloat? x with
    | none => .longest
    | some b => .ofQuotient (b.ratio 1).1 (b.ratio 1).2

instance : Amount Float where
  ofNat := Float.ofNat
  ofSpan := Span.seconds
  atMost x y := x ≤ y
  smaller x y := if x.isNaN then y else if y.isNaN then x else if x < y then x else y
  larger x y := if x.isNaN then y else if y.isNaN then x else if y < x then x else y
  wholes x := x.floor.toUInt64.toNat
  ceil := Float.ceil
  toSpan := Span.ofSeconds
  tolerance := 1e-9
  isRate x := x.isFinite && 0 < x
  label := Decimal.Style.plain.write

end GuardedWrites

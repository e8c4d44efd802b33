import GuardedWrites.Time.Span

/-!
# Spans in messages

A span is written in the largest of the units s, ms, µs and ns in which it is at least one, as a
decimal without trailing zeros. No time at all is `0ns`.
-/

namespace GuardedWrites.Span

/-- A remainder over `unit` as the places after the point, trailing zeros left out. -/
def placesText (rest unit : Nat) : String :=
  let ds := (toString (unit + rest)).toList.drop 1
  let kept := (ds.reverse.dropWhile fun c => c = '0').reverse
  if kept.isEmpty then "" else "." ++ String.ofList kept

/-- A number of nanoseconds in units of `unit` nanoseconds. -/
def inUnit (nanos unit : Nat) (name : String) : String :=
  toString (nanos / unit) ++ placesText (nanos % unit) unit ++ name

/-- The text of a span. -/
def text (d : Span) : String :=
  if nanosPerSecond ≤ d.nanos then inUnit d.nanos nanosPerSecond "s"
  else if 1000000 ≤ d.nanos then inUnit d.nanos 1000000 "ms"
  else if 1000 ≤ d.nanos then inUnit d.nanos 1000 "µs"
  else inUnit d.nanos 1 "ns"

end GuardedWrites.Span

import GuardedWrites.Json.Format
import GuardedWrites.Rate.Amount

/-!
# Waiting between attempts

The wait doubles after each failed attempt up to a cap. A random part of it may be added so that
callers who collided spread out.

* `BackoffPolicy.baseFor` — the wait after a failed attempt without the random part;
* `BackoffPolicy.delay` — the whole wait, given the fraction that was drawn.
-/

namespace GuardedWrites

/-- How long to wait between attempts: the first wait, the cap, and how much of the wait may be
added. -/
structure BackoffPolicy where
  baseDelay : Span
  maxDelay : Span
  jitter : Float

namespace BackoffPolicy

/-- The usual waits: 25 ms doubling up to a second, up to a quarter more. -/
def standard : BackoffPolicy := ⟨.ofMillis 25, .ofSecs 1, 0.25⟩

/-- No wait at all. -/
def none : BackoffPolicy := ⟨.zero, .zero, 0⟩

/-- Largest exponent of the doubling. -/
def exponentLimit : Nat := 31

/-- The wait after failed attempt `attempt`, counted from one. -/
def baseFor (p : BackoffPolicy) (attempt : Nat) : Span :=
  (p.baseDelay.scale (Nat.pow 2 (min (attempt - 1) exponentLimit))).shorter p.maxDelay

/-- The jitter as a fraction between zero and one. -/
def fraction (p : BackoffPolicy) : Float :=
  if p.jitter < 0 then 0 else if 1 < p.jitter then 1 else p.jitter

/-- The most that can be added to a wait. -/
def spread (p : BackoffPolicy) (base : Span) : Span := .ofSeconds (base.seconds * p.fraction)

/-- The wait after failed attempt `attempt` when `draw`, between zero and one, was drawn. -/
def delay (p : BackoffPolicy) (attempt : Nat) (draw : Float) : Span :=
  let base := p.baseFor attempt
  if p.fraction == 0 || base.isZero then base
  else base.add (.ofSeconds (base.seconds * p.fraction * draw))

end BackoffPolicy

open Written in
instance : Format BackoffPolicy where
  write p := .obj [("base_delay", Format.write p.baseDelay), ("max_delay", Format.write p.maxDelay),
    ("jitter", .ofFloat p.jitter)]
  read w := do
    let p ← w.parts? ["base_delay", "max_delay", "jitter"] false
    let base ← p.orElse 0 BackoffPolicy.standard.baseDelay Format.read
    let max ← p.orElse 1 BackoffPolicy.standard.maxDelay Format.read
    let jitter ← p.orElse 2 BackoffPolicy.standard.jitter float?
    return ⟨base, max, jitter⟩

end GuardedWrites

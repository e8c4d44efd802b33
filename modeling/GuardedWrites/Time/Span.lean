/-!
# Lengths of time

A `Span` is a whole number of nanoseconds between zero and `Span.longest`. Arithmetic never
leaves that range: what would exceed it is cut to the longest span, what would fall below zero
is cut to zero.

* `Span.ofNanos` — the span of a number of nanoseconds, cut to the longest one;
* `Span.nanos_ofNanos` — the number of nanoseconds it then has.
-/

namespace GuardedWrites

/-- Nanoseconds in one second. -/
def nanosPerSecond : Nat := 1000000000

/-- Nanoseconds of the longest span: one less than `2^64` seconds. -/
def spanLimit : Nat := UInt64.size * nanosPerSecond - 1

/-- A length of time in whole nanoseconds. -/
structure Span where
  nanos : Nat
  le_limit : nanos ≤ spanLimit

namespace Span

instance : DecidableEq Span := fun a b =>
  if h : a.nanos = b.nanos then .isTrue (by cases a; cases b; cases h; rfl)
  else .isFalse (fun e => h (by rw [e]))

instance : LE Span := ⟨fun a b => a.nanos ≤ b.nanos⟩

instance : LT Span := ⟨fun a b => a.nanos < b.nanos⟩

instance (a b : Span) : Decidable (a ≤ b) := inferInstanceAs (Decidable (a.nanos ≤ b.nanos))

instance (a b : Span) : Decidable (a < b) := inferInstanceAs (Decidable (a.nanos < b.nanos))

/-- The span of `n` nanoseconds, or the longest span if there are too many. -/
def ofNanos (n : Nat) : Span := ⟨min n spanLimit, Nat.min_le_right _ _⟩

/-- No time at all. -/
def zero : Span := ⟨0, Nat.zero_le _⟩

/-- The longest span. -/
def longest : Span := ⟨spanLimit, Nat.le_refl _⟩

/-- The span of a whole number of seconds. -/
def ofSecs (n : Nat) : Span := ofNanos (n * nanosPerSecond)

/-- The span of a whole number of milliseconds. -/
def ofMillis (n : Nat) : Span := ofNanos (n * 1000000)

/-- The span of `secs` seconds and `nanos` nanoseconds. -/
def ofParts (secs nanos : Nat) : Span := ofNanos (secs * nanosPerSecond + nanos)

/-- Whole seconds of a span. -/
def secs (d : Span) : Nat := d.nanos / nanosPerSecond

/-- Nanoseconds of a span beyond its whole seconds. -/
def subsecNanos (d : Span) : Nat := d.nanos % nanosPerSecond

/-- Whole milliseconds of a span. -/
def millis (d : Span) : Nat := d.nanos / 1000000

/-- Whether a span is empty. -/
def isZero (d : Span) : Bool := d.nanos == 0

/-- The sum, cut to the longest span. -/
def add (a b : Span) : Span := ofNanos (a.nanos + b.nanos)

/-- The difference, or zero if the second span is the longer one. -/
def sub (a b : Span) : Span := ofNanos (a.nanos - b.nanos)

/-- A multiple, cut to the longest span. -/
def scale (a : Span) (n : Nat) : Span := ofNanos (a.nanos * n)

/-- The shorter of two spans. -/
def shorter (a b : Span) : Span := if a ≤ b then a else b

theorem nanos_ofNanos (n : Nat) : (ofNanos n).nanos = min n spanLimit := rfl

theorem ext_nanos {a b : Span} (h : a.nanos = b.nanos) : a = b := by
  cases a; cases b; cases h; rfl

end Span

end GuardedWrites

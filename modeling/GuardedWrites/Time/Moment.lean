import GuardedWrites.Time.Span

/-!
# Points in time

A `Moment` is a number of nanoseconds after the epoch, negative before it. The time that passed
between two moments is a span, and it is zero when the clock stepped back.
-/

namespace GuardedWrites

/-- A point in time, in nanoseconds after the epoch. -/
structure Moment where
  nanos : Int
deriving DecidableEq

namespace Moment

instance : LE Moment := ⟨fun a b => a.nanos ≤ b.nanos⟩

instance : LT Moment := ⟨fun a b => a.nanos < b.nanos⟩

instance (a b : Moment) : Decidable (a ≤ b) := inferInstanceAs (Decidable (a.nanos ≤ b.nanos))

instance (a b : Moment) : Decidable (a < b) := inferInstanceAs (Decidable (a.nanos < b.nanos))

/-- The epoch. -/
def epoch : Moment := ⟨0⟩

/-- The moment `secs` seconds after the epoch (before it if negative) and `nanos` nanoseconds
later. -/
def ofParts (secs : Int) (nanos : Nat) : Moment := ⟨secs * nanosPerSecond + nanos⟩

/-- The moment a number of milliseconds after the epoch. -/
def ofMillis (n : Nat) : Moment := ⟨n * 1000000⟩

/-- Whole seconds after the epoch, rounded down. -/
def secs (t : Moment) : Int := t.nanos.fdiv nanosPerSecond

/-- Nanoseconds beyond the whole seconds. -/
def subsecNanos (t : Moment) : Nat := (t.nanos.fmod nanosPerSecond).toNat

/-- The moment a span later. -/
def later (t : Moment) (d : Span) : Moment := ⟨t.nanos + d.nanos⟩

/-- The later of two moments. -/
def latest (a b : Moment) : Moment := if a ≤ b then b else a

/-- The time from `since` to `now`; zero if the clock stepped back. -/
def elapsed (since now : Moment) : Span := .ofNanos (now.nanos - since.nanos).toNat

/-- The time since the epoch; zero before it. -/
def sinceEpoch (t : Moment) : Span := elapsed epoch t

theorem le_refl (t : Moment) : t ≤ t := Int.le_refl _

theorem le_trans {a b c : Moment} (h : a ≤ b) (k : b ≤ c) : a ≤ c := Int.le_trans h k

theorem le_total (a b : Moment) : a ≤ b ∨ b ≤ a := Int.le_total _ _

theorem le_of_not_le {a b : Moment} (h : ¬ a ≤ b) : b ≤ a := (le_total a b).resolve_left h

end Moment

end GuardedWrites

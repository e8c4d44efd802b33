import GuardedWrites.Json.Format

/-!
# Counters of a limiter

`Counters` tell how many checks were made and how they ended, how many rule evaluations were
answered in process, and how many calls of the remote store failed.
-/

namespace GuardedWrites

/-- Counts of a limiter's work. -/
structure Counters where
  totalChecks : Nat
  allowed : Nat
  throttled : Nat
  fallbackChecks : Nat
  backendFailures : Nat
deriving DecidableEq

namespace Counters

/-- Nothing counted yet. -/
def zero : Counters := ⟨0, 0, 0, 0, 0⟩

/-- The fraction of checks that were throttled; zero if there were none. -/
def throttleRate (c : Counters) : Float :=
  if c.totalChecks = 0 then 0 else Float.ofNat c.throttled / Float.ofNat c.totalChecks

/-- The counters as an object. -/
def toJson (c : Counters) : Json :=
  .obj [("total_checks", .ofNat c.totalChecks), ("allowed", .ofNat c.allowed),
    ("throttled", .ofNat c.throttled), ("fallback_checks", .ofNat c.fallbackChecks),
    ("backend_failures", .ofNat c.backendFailures)]

end Counters

end GuardedWrites

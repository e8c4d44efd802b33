import GuardedWrites.Time.Moment

/-!
# Circuit breaker of the remote store

The breaker counts failures in a row. When they reach the threshold the remote store is bypassed
(`degraded`). If a time for probing is set, the first request that comes so long after the last
failure may try the store again (`probing`), and its result brings the breaker back to `healthy` or
to `degraded`.

* `Breaker.allowRemote` — whether the next call may go to the remote store;
* `Breaker.recordSuccess`, `Breaker.recordFailure`, `Breaker.reset` — what changes the breaker.
-/

namespace GuardedWrites

/-- Health of the remote store. -/
inductive Health where
  | healthy
  | degraded
  | probing
deriving DecidableEq

/-- When the breaker trips and how long it waits for a probe; without a time it never probes. -/
structure HealthConfig where
  failureThreshold : Nat
  reprobeAfter : Option Span
deriving DecidableEq

/-- One failure trips the breaker, and it stays so. -/
def HealthConfig.standard : HealthConfig := ⟨1, none⟩

/-- State of the breaker. The last failure is kept in nanoseconds after the epoch, in 64 bits. -/
structure Breaker where
  health : Health
  failures : Nat
  lastFailureNanos : Nat
deriving DecidableEq

namespace Breaker

/-- Largest time of a failure that can be kept. -/
def nanosLimit : Nat := UInt64.size - 1

/-- A breaker that has seen no failure. -/
def initial : Breaker := ⟨.healthy, 0, 0⟩

/-- The moment of the last failure. -/
def lastFailure (b : Breaker) : Moment := ⟨b.lastFailureNanos⟩

/-- Whether the next call may go to the remote store. Out of `degraded` one caller may, as a
probe. -/
def allowRemote (b : Breaker) (config : HealthConfig) (now : Moment) : Bool × Breaker :=
  match b.health with
  | .healthy => (true, b)
  | .probing => (false, b)
  | .degraded =>
    match config.reprobeAfter with
    | none => (false, b)
    | some d =>
      if b.lastFailure.elapsed now < d then (false, b) else (true, { b with health := .probing })

/-- The remote store answered. -/
def recordSuccess (b : Breaker) : Breaker := { b with health := .healthy, failures := 0 }

/-- The remote store failed at `now`. -/
def recordFailure (b : Breaker) (config : HealthConfig) (now : Moment) : Breaker :=
  let failures := b.failures + 1
  let health := match b.health with
    | .healthy => if config.failureThreshold ≤ failures then .degraded else .healthy
    | .degraded | .probing => .degraded
  ⟨health, failures, min now.sinceEpoch.nanos nanosLimit⟩

/-- Forces the breaker to `healthy`. -/
def reset (b : Breaker) : Breaker := { b with health := .healthy, failures := 0 }

/-- What can happen to a breaker. -/
inductive Event where
  | allow
  | success
  | failure
  | reset
deriving DecidableEq

/-- The effect of an event at a clock reading; only `allow` has an answer. -/
def step (config : HealthConfig) (b : Breaker) (e : Event) (now : Moment) : Option Bool × Breaker :=
  match e with
  | .allow => let (granted, b') := b.allowRemote config now; (some granted, b')
  | .success => (none, b.recordSuccess)
  | .failure => (none, b.recordFailure config now)
  | .reset => (none, b.reset)

end Breaker

end GuardedWrites

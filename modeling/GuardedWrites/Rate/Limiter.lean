import GuardedWrites.Rate.Breaker
import GuardedWrites.Rate.Counters
import GuardedWrites.Rate.Remote

/-!
# The limiter

A limiter decides whether a request of a key passes every rule of a list. Each rule is judged by the
remote store while the breaker allows it, and by slots in process otherwise. A remote store that
fails or is late never fails a check: the failure is counted, told to the breaker, and the same rule
is judged here.

* `Limiter.Request`, `Limiter.step` — the indivisible steps on a limiter's own state;
* `Limiter.check`, `Limiter.enforce`, `Limiter.status`, `Limiter.reset`, `Limiter.probe` — its
  operations.
-/

namespace GuardedWrites

/-- How a limiter names its keys, how long it waits for the remote store, and how many keys it
keeps. -/
structure LimiterConfig where
  keyPrefix : String
  remoteTimeout : Span
  maxTrackedKeys : Nat
deriving DecidableEq

/-- The usual configuration. -/
def LimiterConfig.standard : LimiterConfig :=
  ⟨"rate_limit:", .ofMillis 250, EvictionPolicy.defaultMaxKeys⟩

open Written in
instance : Format LimiterConfig where
  write c := .obj [("key_prefix", .str c.keyPrefix),
    ("remote_timeout", Format.write c.remoteTimeout), ("max_tracked_keys", .ofNat c.maxTrackedKeys)]
  read w := do
    let p ← w.parts? ["key_prefix", "remote_timeout", "max_tracked_keys"] false
    let keyPrefix ← p.orElse 0 LimiterConfig.standard.keyPrefix text?
    let timeout ← p.orElse 1 LimiterConfig.standard.remoteTimeout Format.read
    let max ← p.orElse 2 LimiterConfig.standard.maxTrackedKeys nat?
    return ⟨keyPrefix, timeout, max⟩

/-- What a limiter is built from. -/
structure LimiterSettings where
  config : LimiterConfig
  health : HealthConfig
deriving DecidableEq

namespace LimiterSettings

/-- Why a limiter cannot be built, if so. -/
def fault? (s : LimiterSettings) : Option BuildFault :=
  if s.config.remoteTimeout.isZero then some .zeroRemoteTimeout
  else if s.health.failureThreshold = 0 then some .zeroFailureThreshold
  else if s.config.maxTrackedKeys = 0 then some .zeroMaxTrackedKeys
  else none

/-- What the slots of the limiter give up when they are full. -/
def policy (s : LimiterSettings) : EvictionPolicy := .leastRecent s.config.maxTrackedKeys

/-- The key of the state of a label under a key. -/
def storeKey (s : LimiterSettings) (key label : String) : String :=
  s.config.keyPrefix ++ key ++ ":" ++ label

/-- What the keys of all state under a key start with. -/
def storeStart (s : LimiterSettings) (key : String) : String := s.config.keyPrefix ++ key ++ ":"

end LimiterSettings

namespace Limiter

/-- What a limiter keeps. -/
structure State (ν : Type) where
  slots : Slots ν
  breaker : Breaker
  counters : Counters

/-- A limiter that has seen nothing. -/
def State.initial {ν : Type} : State ν := ⟨.empty, .initial, .zero⟩

/-- The indivisible steps on what a limiter keeps. -/
inductive Request (ν : Type) where
  | now
  | checkStarted
  | checkAllowed
  | checkThrottled
  | remoteAllowed
  | remoteAnswered
  | remoteFailed
  | judge (key : String) (algorithm : Algorithm ν) (now : Moment)
  | status (key : String) (rule : Rule ν) (now : Moment)
  | forget (start : String)

/-- What the reply to a step holds. -/
abbrev Reply {ν : Type} : Request ν → Type
  | .now => Moment
  | .remoteAllowed => Bool
  | .judge _ _ _ => Outcome
  | .status _ _ _ => RuleStatus
  | _ => Unit

/-- The limiter's own state as a service. -/
abbrev service (ν : Type) : Service := ⟨Request ν, Reply⟩

/-- One step at a clock reading. -/
def step {ν : Type} [Amount ν] (cfg : LimiterSettings) (clock : Moment) (s : State ν) :
    (r : Request ν) → Reply r × State ν
  | .now => (clock, s)
  | .checkStarted => ((), { s with counters.totalChecks := s.counters.totalChecks + 1 })
  | .checkAllowed => ((), { s with counters.allowed := s.counters.allowed + 1 })
  | .checkThrottled => ((), { s with counters.throttled := s.counters.throttled + 1 })
  | .remoteAllowed =>
    let (granted, b) := s.breaker.allowRemote cfg.health clock
    (granted, { s with breaker := b })
  | .remoteAnswered => ((), { s with breaker := s.breaker.recordSuccess })
  | .remoteFailed =>
    ((), { s with
      counters.backendFailures := s.counters.backendFailures + 1
      breaker := s.breaker.recordFailure cfg.health clock })
  | .judge key a now =>
    let (o, slots) := s.slots.judge cfg.policy key a now
    (o, { s with counters.fallbackChecks := s.counters.fallbackChecks + 1, slots := slots })
  | .status key rule now => (s.slots.status key rule now, s)
  | .forget start => ((), { s with slots := (s.slots.removeStarting start).2 })

end Limiter

/-- A limiter: its settings, the access to its own state, and the remote store if it has one. -/
structure Limiter (ν : Type) (m : Type → Type) where
  settings : LimiterSettings
  own : (Limiter.service ν).Via m
  remote : Option ((RateStore.service ν).Via m)

namespace Limiter

variable {ν : Type} [Amount ν] {m : Type → Type} [Monad m] [Timed m]

/-- The remote store, if there is one and the breaker allows it now. -/
def remoteNow (L : Limiter ν m) : m (Option ((RateStore.service ν).Via m)) :=
  match L.remote with
  | none => pure none
  | some remote => do
    let granted ← L.own .remoteAllowed
    pure (if granted then some remote else none)

/-- A remote call that is abandoned after the timeout. -/
def bounded {α : Type} (L : Limiter ν m) (call : m (Except BackendError α)) :
    m (Except BackendError α) := do
  match ← Timed.within L.settings.config.remoteTimeout call with
  | some r => pure r
  | none => pure (.error (.timeout L.settings.config.remoteTimeout))

/-- Tells the breaker how a remote call ended, and keeps the result of a successful one. -/
def settle {α : Type} (L : Limiter ν m) : Except BackendError α → m (Option α)
  | .ok a => do
    L.own .remoteAnswered
    pure (some a)
  | .error _ => do
    L.own .remoteFailed
    pure none

/-- Judges one rule, by the remote store if possible. -/
def evaluate (L : Limiter ν m) (key : String) (rule : Rule ν) (now : Moment) : m Outcome := do
  let storeKey := L.settings.storeKey key rule.label
  match ← L.remoteNow with
  | none => L.own (.judge storeKey rule.algorithm now)
  | some remote =>
    match ← L.settle (← L.bounded (remote (.judge storeKey rule.algorithm now))) with
    | some outcome => pure outcome
    | none => L.own (.judge storeKey rule.algorithm now)

/-- Judges the rules in order. The first denial ends the check; what earlier rules have counted
stays. -/
def judgeAll (L : Limiter ν m) (key : String) (now : Moment) :
    (remaining : Nat) → List (Rule ν) → m Verdict
  | remaining, [] => do
    L.own .checkAllowed
    pure ⟨true, remaining, 0⟩
  | remaining, rule :: rest => do
    let outcome ← L.evaluate key rule now
    if outcome.allowed then L.judgeAll key now (min remaining outcome.remaining) rest
    else
      L.own .checkThrottled
      pure ⟨false, 0, outcome.retryAfter.seconds⟩

/-- Decides whether a request of `key` passes every rule. -/
def check (L : Limiter ν m) (key : String) (rules : List (Rule ν)) : m (Except Failure Verdict) :=
  match Rule.firstFault? rules with
  | some fault => pure (.error (.invalidRule fault))
  | none => do
    L.own .checkStarted
    let now ← L.own .now
    let verdict ← L.judgeAll key now countLimit rules
    pure (.ok verdict)

/-- A check whose denial is a failure. -/
def enforce (L : Limiter ν m) (key : String) (rules : List (Rule ν)) :
    m (Except Failure Verdict) := do
  match ← L.check key rules with
  | .ok verdict => pure verdict.toExcept
  | .error f => pure (.error f)

/-- Forgets all state of `key`, here in any case and in the remote store if it can be reached. -/
def reset (L : Limiter ν m) (key : String) : m Unit := do
  let start := L.settings.storeStart key
  match ← L.remoteNow with
  | none => pure ()
  | some remote =>
    let _ ← L.settle (← L.bounded (remote (.clearStarting start)))
  L.own (.forget start)

/-- The remote state of the rules, up to the first call that fails. -/
def remoteStatus (L : Limiter ν m) (remote : (RateStore.service ν).Via m) (key : String)
    (now : Moment) :
    List (Rule ν) → m (Except BackendError (List RuleStatus))
  | [] => pure (.ok [])
  | rule :: rest => do
    match ← L.bounded (remote (.status (L.settings.storeKey key rule.label) rule now)) with
    | .error e => pure (.error e)
    | .ok s =>
      match ← L.remoteStatus remote key now rest with
      | .error e => pure (.error e)
      | .ok more => pure (.ok (s :: more))

/-- The state of the rules kept here. -/
def localStatus (L : Limiter ν m) (key : String) (now : Moment) :
    List (Rule ν) → m (List RuleStatus)
  | [] => pure []
  | rule :: rest => do
    let s ← L.own (.status (L.settings.storeKey key rule.label) rule now)
    let more ← L.localStatus key now rest
    pure (s :: more)

/-- Reads the state of every rule of `key` and changes none. -/
def status (L : Limiter ν m) (key : String) (rules : List (Rule ν)) :
    m (Except Failure StatusReport) :=
  match Rule.firstFault? rules with
  | some fault => pure (.error (.invalidRule fault))
  | none => do
    let now ← L.own .now
    let answered ← match ← L.remoteNow with
      | none => pure none
      | some remote => do
        let result ← L.remoteStatus remote key now rules
        L.settle result
    match answered with
    | some statuses => pure (.ok ⟨key, statuses, .remote⟩)
    | none =>
      let statuses ← L.localStatus key now rules
      pure (.ok ⟨key, statuses, .here⟩)

/-- Pings the remote store, whatever the breaker says, and tells whether it answered. -/
def probe (L : Limiter ν m) : m Bool :=
  match L.remote with
  | none => pure false
  | some remote => do
    let answered ← L.settle (← L.bounded (remote .ping))
    pure answered.isSome

end Limiter

end GuardedWrites

import GuardedWrites.Effect.Program
import GuardedWrites.Rate.Slots

/-!
# Remote stores of rule state

`RateStore` is the service that a limiter may use in place of its own slots. Each request is one
indivisible step of the store and can fail.

`UnreliableStore` is such a store for rehearsals: slots behind a switch. Each call first applies the
next change that is scheduled, then waits for the latency, and then fails if the store is down.
-/

namespace GuardedWrites

namespace RateStore

/-- What can be asked of a remote store. -/
inductive Request (ν : Type) where
  | judge (key : String) (algorithm : Algorithm ν) (now : Moment)
  | status (key : String) (rule : Rule ν) (now : Moment)
  | clearStarting (start : String)
  | ping

/-- What a successful answer holds. -/
abbrev Result {ν : Type} : Request ν → Type
  | .judge _ _ _ => Outcome
  | .status _ _ _ => RuleStatus
  | .clearStarting _ => Nat
  | .ping => Unit

/-- The remote store as a service. -/
abbrev service (ν : Type) : Service := ⟨Request ν, fun r => Except BackendError (Result r)⟩

variable {ν : Type} [Amount ν]

/-- Answers a request from slots. -/
def ofSlots (policy : EvictionPolicy) (s : Slots ν) : (r : Request ν) → Result r × Slots ν
  | .judge key a now => s.judge policy key a now
  | .status key rule now => (s.status key rule now, s)
  | .clearStarting start => s.removeStarting start
  | .ping => ((), s)

end RateStore

/-- A change of an unreliable store; what is none stays. -/
structure Switch where
  down : Option Bool
  latency : Option (Option Span)

/-- Slots that answer late or not at all, with the calls they got and the failures among them. -/
structure UnreliableStore (ν : Type) where
  slots : Slots ν
  down : Bool
  latency : Option Span
  calls : Nat
  failures : Nat
  schedule : List Switch

namespace UnreliableStore

/-- A store that is up and has seen no call. -/
def initial {ν : Type} : UnreliableStore ν := ⟨.empty, false, none, 0, 0, []⟩

/-- Applies a change. -/
def switch {ν : Type} (s : UnreliableStore ν) (c : Switch) : UnreliableStore ν :=
  { s with down := c.down.getD s.down, latency := c.latency.getD s.latency }

/-- The two steps of a call: its arrival, and the answer after the latency. -/
inductive Request (ν : Type) where
  | arrive
  | answer (r : RateStore.Request ν)

/-- The store as a service; the reply to an arrival is the latency. -/
abbrev service (ν : Type) : Service :=
  ⟨Request ν, fun
    | .arrive => Option Span
    | .answer r => Except BackendError (RateStore.Result r)⟩

/-- The arrival of a call. -/
def arrive {ν : Type} (s : UnreliableStore ν) : Option Span × UnreliableStore ν :=
  let s := match s.schedule with
    | [] => s
    | c :: rest => { s.switch c with schedule := rest }
  (s.latency, { s with calls := s.calls + 1 })

variable {ν : Type} [Amount ν]

/-- The answer to a request. -/
def answer (s : UnreliableStore ν) (r : RateStore.Request ν) :
    Except BackendError (RateStore.Result r) × UnreliableStore ν :=
  if s.down then (.error (.unavailable "connection refused"), { s with failures := s.failures + 1 })
  else
    let (x, slots) := RateStore.ofSlots (.leastRecent EvictionPolicy.defaultMaxKeys) s.slots r
    (.ok x, { s with slots := slots })

/-- One step of the store. -/
def step (s : UnreliableStore ν) : (r : Request ν) → (service ν).Reply r × UnreliableStore ν
  | .arrive => s.arrive
  | .answer r => s.answer r

/-- The store as a remote store. -/
def remote {m : Type → Type} [Monad m] [Timed m] (ask : (service ν).Via m) :
    (RateStore.service ν).Via m :=
  fun r => do
    match ← ask .arrive with
    | none => pure ()
    | some d => Timed.sleep d
    ask (.answer r)

end UnreliableStore

end GuardedWrites

import GuardedWrites.Proofs.Effect.Tally
import GuardedWrites.Proofs.Rate.Traffic

/-!
# Limiters that share their counters

Any number of limiters, each with its own settings, slots and breaker, and with a remote store or
without one. What they count goes to the same counters. Their operations are mixed in any order,
each of them is dropped at any point, and the remote stores answer late, wrong or not at all.

* `Fleet.Call` — an operation of one of the limiters;
* `Fleet.setting` — how their own states, the counters and the remote stores answer; `Fleet.run` is
  what becomes of a schedule;
* `Fleet.starts`, `Fleet.passes`, `Fleet.denies`, `Fleet.judges`, `Fleet.fails` — the steps that are
  counted;
* `Fleet.counters_run` — the counters are the numbers of such steps in the log.
-/

namespace GuardedWrites

namespace Fleet

open Limiter (Operation)

variable {ν ρ ω : Type}

/-- A step on what one of the limiters keeps, or of its remote store. -/
structure Request (ν : Type) where
  limiter : Nat
  what : Traffic.Request ν

/-- What the reply to a step holds. -/
abbrev Reply (r : Request ν) : Type := Traffic.Reply r.what

/-- All limiters as one service. -/
abbrev service (ν : Type) : Service := ⟨Request ν, Reply⟩

/-- The remote store of a limiter: a call arrives, takes its time and is answered. -/
def remoteStore (j : Nat) : (RateStore.service ν).Via (Program (service ν)) :=
  UnreliableStore.remote fun r => Program.ask (S := service ν) ⟨j, .remote r⟩

/-- The limiter of a number, with a remote store or without one. -/
def limiter (cfg : LimiterSettings) (reach : Bool) (j : Nat) : Limiter ν (Program (service ν)) :=
  { settings := cfg
    own := fun r => Program.ask (S := service ν) ⟨j, .own r⟩
    remote := if reach then some (remoteStore j) else none }

/-- What a limiter has to itself. -/
structure Own (ν : Type) where
  slots : Slots ν
  breaker : Breaker

/-- The state of all limiters: what each has to itself, the counters that they share, and the remote
stores. -/
structure State (ν ρ : Type) where
  own : Nat → Own ν
  counters : Counters
  remote : ρ

/-- What a limiter keeps, the shared counters among it. -/
def State.limiter (s : State ν ρ) (j : Nat) : Limiter.State ν :=
  ⟨(s.own j).slots, (s.own j).breaker, s.counters⟩

/-- An operation of one of the limiters. -/
structure Call (ν : Type) where
  limiter : Nat
  op : Operation ν

variable [Amount ν]

/-- One step. `R j` is how the remote store of limiter `j` takes its steps: several limiters may
have the same one. -/
def step (cfg : Nat → LimiterSettings) (R : Nat → Traffic.RemoteStep ν ρ ω)
    (o : Traffic.Circumstances ω) :
    (r : Request ν) → State ν ρ → Reply r × State ν ρ
  | ⟨j, .own r⟩, s =>
    let x := Limiter.step (cfg j) o.now (s.limiter j) r
    (x.1, { s with
      own := fun i => if i = j then ⟨x.2.slots, x.2.breaker⟩ else s.own i
      counters := x.2.counters })
  | ⟨j, .remote r⟩, s =>
    let x := R j o.remote r s.remote
    (x.1, { s with remote := x.2 })

/-- How the operations of all limiters are answered. -/
def setting (cfg : Nat → LimiterSettings) (R : Nat → Traffic.RemoteStep ν ρ ω) :
    Setting (service ν) (State ν ρ) (Traffic.Circumstances ω) :=
  ⟨step cfg R, (·.timer)⟩

/-- Operations at work. -/
abbrev Scene (ν ρ ω : Type) :=
  Crowd (service ν) (State ν ρ) (Traffic.Circumstances ω) Operation.Result

/-- A log of their steps. -/
abbrev Log (ν ω : Type) := List (Step (service ν) (Traffic.Circumstances ω))

/-- The text of a call. -/
def Call.program (cfg : Nat → LimiterSettings) (reach : Nat → Bool) (c : Call ν) :
    Program (service ν) Operation.Result :=
  (Fleet.limiter (cfg c.limiter) (reach c.limiter) c.limiter).perform c.op

/-- The scene before the first step: nothing is counted yet. -/
def opening (cfg : Nat → LimiterSettings) (reach : Nat → Bool) (calls : Nat → Option (Call ν))
    (own : Nat → Own ν) (remote : ρ) : Scene ν ρ ω :=
  Crowd.start ⟨own, .zero, remote⟩ fun i => (calls i).map (·.program cfg reach)

/-- The scene after a schedule. -/
def run (cfg : Nat → LimiterSettings) (reach : Nat → Bool) (R : Nat → Traffic.RemoteStep ν ρ ω)
    (calls : Nat → Option (Call ν)) (own : Nat → Own ν) (remote : ρ)
    (ms : List (Move (Traffic.Circumstances ω))) : Scene ν ρ ω :=
  (opening cfg reach calls own remote).play (setting cfg R) ms

/-- Whether an operation has returned at some point of a schedule. -/
def returned (cfg : Nat → LimiterSettings) (reach : Nat → Bool) (R : Nat → Traffic.RemoteStep ν ρ ω)
    (calls : Nat → Option (Call ν)) (own : Nat → Own ν) (remote : ρ)
    (ms : List (Move (Traffic.Circumstances ω))) (i : Nat) : Bool :=
  Crowd.returned (setting cfg R) i (opening cfg reach calls own remote) ms

/-! ### The steps that are counted -/

section Kinds

omit [Amount ν]

/-- A check begins. -/
def starts : Request ν → Bool
  | ⟨_, .own .checkStarted⟩ => true
  | _ => false

/-- A check is allowed. -/
def passes : Request ν → Bool
  | ⟨_, .own .checkAllowed⟩ => true
  | _ => false

/-- A check is throttled. -/
def denies : Request ν → Bool
  | ⟨_, .own .checkThrottled⟩ => true
  | _ => false

/-- A rule is judged in process. -/
def judges : Request ν → Bool
  | ⟨_, .own (.judge _ _ _)⟩ => true
  | _ => false

/-- The breaker is told of a failure. -/
def fails : Request ν → Bool
  | ⟨_, .own .remoteFailed⟩ => true
  | _ => false

/-- How often a kind of step was taken. -/
def total (kind : Request ν → Bool) (log : Log ν ω) : Nat := log.countP fun e => e.deed.calls kind

/-- What a log makes of the counters. -/
def counted (log : Log ν ω) : Counters :=
  ⟨total starts log, total passes log, total denies log, total judges log, total fails log⟩

theorem total_cons (kind : Request ν → Bool) (e : Step (service ν) (Traffic.Circumstances ω))
    (log : Log ν ω) :
    total kind (e :: log) = total kind log + (e.deed.calls kind).toNat := by
  rw [total, List.countP_cons]
  cases e.deed.calls kind <;> rfl

end Kinds

section Counters

variable {cfg : Nat → LimiterSettings} {R : Nat → Traffic.RemoteStep ν ρ ω}

/-- What one step adds to the counters. -/
theorem counters_step (o : Traffic.Circumstances ω) (r : Request ν) (s : State ν ρ) :
    (step cfg R o r s).2.counters =
      ⟨s.counters.totalChecks + (starts r).toNat, s.counters.allowed + (passes r).toNat,
        s.counters.throttled + (denies r).toNat, s.counters.fallbackChecks + (judges r).toNat,
        s.counters.backendFailures + (fails r).toNat⟩ := by
  obtain ⟨j, r⟩ := r
  cases r with
  | own r => cases r <;> rfl
  | remote r => rfl

theorem counters_next? {o : Traffic.Circumstances ω} {s s' : State ν ρ} {d : Deed (service ν)}
    {q q' : Program (service ν) Operation.Result} {log : Log ν ω} (hs : s.counters = counted log)
    (hn : q.next? (setting cfg R) o s = some (d, q', s')) (who : Nat) :
    s'.counters = counted (⟨who, o, d⟩ :: log) := by
  rcases Program.next?_cases hn with ⟨r, k, -, rfl, -, rfl⟩ | ⟨rfl, rfl, -⟩
  · show (step cfg R o r s).2.counters = _
    rw [counters_step, hs]
    simp only [counted, total_cons]
    rfl
  · rw [hs]
    simp only [counted, total_cons]
    rfl

/-- The counters are what the log says. -/
theorem counters_run (reach : Nat → Bool) (calls : Nat → Option (Call ν)) (own : Nat → Own ν)
    (remote : ρ) (ms : List (Move (Traffic.Circumstances ω))) :
    (run cfg reach R calls own remote ms).state.counters =
      counted (run cfg reach R calls own remote ms).log :=
  Crowd.play_invariant (E := setting cfg R) (I := fun c => c.state.counters = counted c.log)
    (fun _ who _ _ _ _ _ hc _ hn => counters_next? hc hn who) (fun _ _ hc => hc) rfl ms

end Counters

end Fleet

end GuardedWrites

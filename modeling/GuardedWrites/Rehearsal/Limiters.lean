import GuardedWrites.Rate.Limiter

/-!
# Rehearsing limiters

Several limiters on one clock, with one remote store that fails on schedule. An `Action` is one
thing that a caller, the clock or the remote store does; `Limiters.act` plays it to its end and
tells what came back and how long it took.
-/

namespace GuardedWrites.Rehearsal

/-- One limiter of a rehearsal. -/
structure LimiterPlan where
  settings : LimiterSettings
  hasRemote : Bool
  sharesCounters : Bool

/-- The limiters of a rehearsal with what they use together. -/
structure Limiters (ν : Type) where
  clock : Moment
  states : List (Limiter.State ν)
  sharedCounters : Counters
  store : UnreliableStore ν

namespace Limiters

/-- A step of one limiter's own state, or of the remote store. -/
inductive Request (ν : Type) where
  | own (index : Nat) (r : Limiter.Request ν)
  | remote (r : UnreliableStore.Request ν)

/-- All that the limiters use, as one service. -/
abbrev service (ν : Type) : Service :=
  ⟨Request ν, fun
    | .own _ r => (Limiter.service ν).Reply r
    | .remote r => (UnreliableStore.service ν).Reply r⟩

/-- Limiters that have seen nothing. -/
def initial {ν : Type} (plans : List LimiterPlan) (clock : Moment) : Limiters ν :=
  ⟨clock, plans.map fun _ => .initial, .zero, .initial⟩

/-- The state of a limiter, with the counters that it counts in. -/
def state {ν : Type} (w : Limiters ν) (plan : LimiterPlan) (index : Nat) : Limiter.State ν :=
  let s := w.states[index]?.getD .initial
  if plan.sharesCounters then { s with counters := w.sharedCounters } else s

/-- Puts back the state of a limiter. -/
def withState {ν : Type} (w : Limiters ν) (plan : LimiterPlan) (index : Nat) (s : Limiter.State ν) :
    Limiters ν :=
  let w := { w with states := w.states.set index s }
  if plan.sharesCounters then { w with sharedCounters := s.counters } else w

variable {ν : Type} [Amount ν]

/-- One step. -/
def step (plan : LimiterPlan) : (r : Request ν) → Limiters ν → (service ν).Reply r × Limiters ν
  | .own index r, w =>
    let (x, s) := Limiter.step plan.settings w.clock (w.state plan index) r
    (x, w.withState plan index s)
  | .remote r, w =>
    let (x, store) := w.store.step r
    (x, { w with store := store })

/-- A limiter of the rehearsal. -/
def limiter (plan : LimiterPlan) (index : Nat) : Limiter ν (Program (service ν)) :=
  { settings := plan.settings
    own := fun r => Program.ask (S := service ν) (.own index r)
    remote :=
      if plan.hasRemote then
        some (UnreliableStore.remote fun r => Program.ask (S := service ν) (.remote r))
      else none }

/-- What happens in a rehearsal. A check may be dropped after a time. -/
inductive Action (ν : Type) where
  | check (key : String) (rules : List (Rule ν)) (cancelAfter : Option Span)
  | enforce (key : String) (rules : List (Rule ν))
  | status (key : String) (rules : List (Rule ν))
  | reset (key : String)
  | probe
  | advance (d : Span)
  | setClock (moment : Moment)
  | switch (c : Switch)
  | schedule (cs : List Switch)
  | resetCounters

/-- What comes back from an action. -/
inductive Answer where
  | verdict (v : Except Failure Verdict)
  | abandoned
  | report (r : Except Failure StatusReport)
  | reachable (b : Bool)
  | nothing

/-- The program of an action of a limiter; the others change the rehearsal itself. -/
def program (L : Limiter ν (Program (service ν))) : Action ν → Option (Program (service ν) Answer)
  | .check key rules none => some do return .verdict (← L.check key rules)
  | .check key rules (some d) => some do
    match ← Timed.within d (L.check key rules) with
    | some v => return .verdict v
    | none => return .abandoned
  | .enforce key rules => some do return .verdict (← L.enforce key rules)
  | .status key rules => some do return .report (← L.status key rules)
  | .reset key => some do
    L.reset key
    return .nothing
  | .probe => some do return .reachable (← L.probe)
  | _ => none

/-- Plays an action of limiter `index`; the number is the milliseconds it took. -/
def act (plan : LimiterPlan) (index : Nat) (w : Limiters ν) (a : Action ν) :
    Answer × Limiters ν × Nat :=
  match program (limiter plan index) a with
  | some p =>
    let (answer, w, ticks) := p.run (step plan) w 0
    (answer.getD .abandoned, w, ticks)
  | none =>
    let w := match a with
      | .advance d => { w with clock := w.clock.later d }
      | .setClock t => { w with clock := t }
      | .switch c => { w with store := w.store.switch c }
      | .schedule cs => { w with store.schedule := w.store.schedule ++ cs }
      | .resetCounters => w.withState plan index { w.state plan index with counters := .zero }
      | _ => w
    (.nothing, w, 0)

end Limiters

end GuardedWrites.Rehearsal

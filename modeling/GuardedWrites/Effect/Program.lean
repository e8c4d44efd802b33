import GuardedWrites.Time.Span

/-!
# Programs that call services

A guard talks to stores that others use too, and it waits. A `Program` is the tree of what it does:
each `call` is one indivisible step of a service, and between two steps anything else may happen.
What a program does is fixed by how its calls are answered, so one and the same program can be run
alone, be cut short while it waits, or be one of many whose steps are mixed.

* `Service`, `Service.Via` — requests with the type of the reply to each, and a way to have them
  answered;
* `Program.run` — a run alone, against a function that answers the calls;
* `Program.cutAt`, `Program.untilStuck` — a program that is abandoned at a time, or when it waits
  for ever;
* `Timed` — the actions that wait or are abandoned after a time.
-/

namespace GuardedWrites

/-- A service: its requests, and what a reply to each holds. -/
structure Service where
  Request : Type
  Reply : Request → Type

/-- A way to have the requests of a service answered in `m`. -/
abbrev Service.Via (S : Service) (m : Type → Type) : Type := (r : S.Request) → m (S.Reply r)

/-- A program over a service: finished, a call, a look at the timer, a sleep, or a wait that never
ends. Timer and sleeps count milliseconds. -/
inductive Program (S : Service) (α : Type) : Type where
  | done (a : α)
  | call (r : S.Request) (next : S.Reply r → Program S α)
  | timer (next : Nat → Program S α)
  | sleep (ticks : Nat) (next : Program S α)
  | hang

namespace Program

variable {S : Service} {α β : Type}

/-- One program after another. -/
def bind : Program S α → (α → Program S β) → Program S β
  | .done a, f => f a
  | .call r next, f => .call r fun x => (next x).bind f
  | .timer next, f => .timer fun t => (next t).bind f
  | .sleep d next, f => .sleep d (next.bind f)
  | .hang, _ => .hang

instance : Monad (Program S) where
  pure := .done
  bind := bind

/-- A single call. -/
def ask (r : S.Request) : Program S (S.Reply r) := .call r .done

/-- The program abandoned at `deadline`. What wakes at the deadline itself still goes on. -/
def cutAt (deadline : Nat) : Program S α → Program S (Option α)
  | .done a => .done (some a)
  | .call r next => .call r fun x => (next x).cutAt deadline
  | .timer next => .timer fun t => (next t).cutAt deadline
  | .sleep n next => .timer fun now =>
    if now + n ≤ deadline then .sleep n (next.cutAt deadline)
    else .sleep (deadline - now) (.done none)
  | .hang => .timer fun now => .sleep (deadline - now) (.done none)

/-- The program abandoned as soon as it would wait for ever. -/
def untilStuck : Program S α → Program S (Option α)
  | .done a => .done (some a)
  | .call r next => .call r fun x => (next x).untilStuck
  | .timer next => .timer fun t => (next t).untilStuck
  | .sleep n next => .sleep n next.untilStuck
  | .hang => .done none

/-- Runs a program alone from a state and a timer reading. The result is none if it waits for
ever. -/
def run {σ : Type} (answer : (r : S.Request) → σ → S.Reply r × σ) :
    Program S α → σ → Nat → Option α × σ × Nat
  | .done a, s, now => (some a, s, now)
  | .call r next, s, now => (next (answer r s).1).run answer (answer r s).2 now
  | .timer next, s, now => (next now).run answer s now
  | .sleep n next, s, now => next.run answer s (now + n)
  | .hang, s, now => (none, s, now)

theorem bind_done (p : Program S α) : p.bind .done = p := by
  induction p with
  | done a => rfl
  | call r next ih => simp only [bind, ih]
  | timer next ih => simp only [bind, ih]
  | sleep d next ih => simp only [bind, ih]
  | hang => rfl

theorem bind_assoc {γ : Type} (p : Program S α) (f : α → Program S β) (g : β → Program S γ) :
    (p.bind f).bind g = p.bind fun a => (f a).bind g := by
  induction p with
  | done a => rfl
  | call r next ih => simp only [bind, ih]
  | timer next ih => simp only [bind, ih]
  | sleep d next ih => simp only [bind, ih]
  | hang => rfl

/-- Running one program after another is running the first and then the second from where it
stopped. -/
theorem run_bind {σ : Type} (answer : (r : S.Request) → σ → S.Reply r × σ) (p : Program S α)
    (f : α → Program S β) (s : σ) (now : Nat) :
    (p.bind f).run answer s now =
      match p.run answer s now with
      | (some a, s', now') => (f a).run answer s' now'
      | (none, s', now') => (none, s', now') := by
  induction p generalizing s now with
  | done a => rfl
  | call r next ih => simp only [bind, run, ih]
  | timer next ih => simp only [bind, run, ih]
  | sleep d next ih => simp only [bind, run, ih]
  | hang => rfl

end Program

/-- The longest wait that is timed, in milliseconds: thirty years. -/
def longestWait : Nat := 86400 * 365 * 30 * 1000

/-- The timer ticks of a span: milliseconds, rounded up, and no more than the longest wait. -/
def Span.ticks (d : Span) : Nat := min ((d.nanos + 999999) / 1000000) longestWait

/-- Actions that can wait and be abandoned. -/
class Timed (m : Type → Type) where
  /-- Waits for a span. -/
  sleep : Span → m Unit
  /-- Waits for ever. -/
  hang {α : Type} : m α
  /-- Runs an action, or abandons it when a span has passed. -/
  within {α : Type} : Span → m α → m (Option α)

instance (S : Service) : Timed (Program S) where
  sleep d := .sleep d.ticks (.done ())
  hang := .hang
  within d p := .timer fun now => p.cutAt (now + d.ticks)

instance (ρ : Type) (m : Type → Type) [Timed m] : Timed (ReaderT ρ m) where
  sleep d := fun _ => Timed.sleep d
  hang := fun _ => Timed.hang
  within d p := fun r => Timed.within d (p r)

end GuardedWrites

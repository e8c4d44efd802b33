import GuardedWrites.Idempotency.Guard
import GuardedWrites.Rate.Limiter
import GuardedWrites.Transaction.Runner

/-!
# Guarded mutations

A mutation first counts against the rate rules. If it carries an idempotency key, a completed result
is replayed; otherwise its work runs in a transaction that is tried again on conflicts.
-/

namespace GuardedWrites

/-- One mutation: the key that it counts under, the key that it is deduplicated by, and how it is
run. -/
structure Mutation where
  rateKey : String
  idempotencyKey : Option String
  isolation : IsolationLevel
  operation : String
  maxAttempts : Nat

namespace Mutation

/-- A mutation at `READ COMMITTED` without an idempotency key. -/
def new (rateKey operation : String) : Mutation :=
  ⟨rateKey, none, .readCommitted, operation, RunSpec.defaultMaxAttempts⟩

/-- How the work of a mutation is run. -/
def spec (x : Mutation) : RunSpec := ⟨x.isolation, false, x.operation, x.maxAttempts⟩

end Mutation

/-- A limiter with its rules, a guard if mutations are deduplicated, and a runner. -/
structure MutationGuard (ν : Type) (m : Type → Type) where
  limiter : Limiter ν m
  rules : List (Rule ν)
  idempotency : Option (IdempotencyGuard m)
  runner : Runner m

namespace MutationGuard

variable {ν : Type} [Amount ν] {m : Type → Type} [Monad m] [Timed m]
variable [MonadReaderOf Scope m] [MonadWithReaderOf Scope m] {ρ : Type}

/-- Runs the work of a mutation, or replays its result. -/
def execute (G : MutationGuard ν m) (codec : ResultCodec ρ) (x : Mutation)
    (work : Handle → m (Except Failure ρ)) : m (Except Failure (Execution ρ)) := do
  match ← G.limiter.enforce x.rateKey G.rules with
  | .error f => return .error f
  | .ok _ =>
    let transaction := G.runner.run x.spec work
    match G.idempotency, x.idempotencyKey with
    | some guard, some key => guard.execute codec key transaction
    | _, _ =>
      match ← transaction with
      | .error f => return .error f
      | .ok result => return .ok ⟨true, result⟩

end MutationGuard

end GuardedWrites

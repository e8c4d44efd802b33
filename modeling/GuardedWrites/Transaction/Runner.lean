import GuardedWrites.Database.Database
import GuardedWrites.Transaction.Backoff
import GuardedWrites.Transaction.Conflict
import GuardedWrites.Transaction.Phase

/-!
# Running work in transactions

A runner begins a transaction, runs the work in it, and commits. A failed attempt is rolled back; if
its store error is a passing conflict and attempts are left, the work is run again in a new
transaction after a wait.

While work runs, its transaction is the scope of everything inside it. A run on the same store
inside that scope joins the transaction: it begins, commits and retries nothing, and its failure
goes to the attempt around it. Only the innermost transaction is looked at.

* `Runner.attempt` — begin, work, commit or roll back;
* `Runner.attempts` — attempts until one is final;
* `Runner.run` — the same, or joining the transaction around it.
-/

namespace GuardedWrites

/-- Access to the transaction of an attempt: the store and the number of the transaction. -/
structure Handle where
  store : Nat
  tx : Nat
  context : TransactionContext
deriving DecidableEq

/-- The transaction of the work that is running, if any. -/
abbrev Scope := Option Handle

/-- How a run is to be made. -/
structure RunSpec where
  isolation : IsolationLevel
  lockRows : Bool
  operation : String
  maxAttempts : Nat
deriving DecidableEq

namespace RunSpec

/-- Attempts unless it is set. -/
def defaultMaxAttempts : Nat := 3

/-- The name of a run that was given none. -/
def defaultOperation : String := "transaction"

/-- A run at `READ COMMITTED` with nothing set. -/
def standard : RunSpec := ⟨.readCommitted, false, defaultOperation, defaultMaxAttempts⟩

/-- The number of attempts, at least one. -/
def budget (s : RunSpec) : Nat := max s.maxAttempts 1

/-- The context of an attempt. -/
def context (s : RunSpec) (attempt : Nat) : TransactionContext :=
  ⟨s.isolation, s.operation, attempt, s.budget, s.lockRows⟩

end RunSpec

/-- A runner on one store. `draw` is the random fraction used after each failed attempt, and
`observe` is told every change of phase. -/
structure Runner (m : Type → Type) where
  store : Nat
  ask : TransactionalStore.service.Via m
  classify : StoreError → ErrorClass
  backoff : BackoffPolicy
  draw : Nat → Float
  observe : Phase → Phase → m Unit

namespace Runner

variable {m : Type → Type} [Monad m] {ε α : Type}

/-- Reads a row in the transaction of a handle. -/
def fetch (R : Runner m) (h : Handle) (table id : String) : m (Except StoreError (Option Row)) :=
  R.ask (.fetch h.tx table id)

/-- Inserts a row in the transaction of a handle. -/
def insert (R : Runner m) (h : Handle) (table : String) (row : Row) : m (Except StoreError Unit) :=
  R.ask (.insert h.tx table row)

/-- Updates a row in the transaction of a handle. -/
def update (R : Runner m) (h : Handle) (table id : String) (patch : Fields)
    (expected : Option UInt64) :
    m (Except StoreError Nat) :=
  R.ask (.update h.tx table id patch expected)

/-- Whether a failure is worth another attempt. -/
def classOf [TransactionFailure ε] (R : Runner m) (e : ε) : ErrorClass :=
  match TransactionFailure.storeError? e with
  | none => .fatal
  | some s => R.classify s

variable [MonadReaderOf Scope m] [MonadWithReaderOf Scope m]

/-- The transaction around a run, if it was begun on the same store. -/
def enclosing (R : Runner m) : m Scope := do
  let scope ← readThe Scope
  return scope.filter fun h => h.store == R.store

/-- One transaction: begun, worked in, and committed or rolled back. -/
def attempt [TransactionFailure ε] (R : Runner m) (context : TransactionContext)
    (work : Handle → m (Except ε α)) : m (Except ε α) := do
  match ← R.ask (.begin context) with
  | .error e => return .error (TransactionFailure.ofStoreError e)
  | .ok tx =>
    let handle : Handle := ⟨R.store, tx, context⟩
    match ← withTheReader Scope (fun _ => some handle) (work handle) with
    | .ok a =>
      match ← R.ask (.commit tx) with
      | .ok () => return .ok a
      | .error e => return .error (TransactionFailure.ofStoreError e)
    | .error e =>
      let _ ← R.ask (.rollback tx)
      return .error e

variable [Timed m]

/-- Waits after a failed attempt. -/
def pause (R : Runner m) (attempt : Nat) : m Unit :=
  let d := R.backoff.delay attempt (R.draw attempt)
  if d.isZero then pure () else Timed.sleep d

/-- Attempt number `n`, with what the observer is told. What follows its failure is up to
`failed`. -/
def round [TransactionFailure ε] (R : Runner m) (spec : RunSpec) (work : Handle → m (Except ε α))
    (n : Nat) (phase : Phase) (failed : ε → m (Except ε α)) :
    m (Except ε α) := do
  R.observe phase .running
  match ← R.attempt (spec.context n) work with
  | .ok a =>
    R.observe .running .committed
    return .ok a
  | .error e => failed e

/-- A run ends with a failure. -/
def giveUp (R : Runner m) (e : ε) : m (Except ε α) := do
  R.observe .running .rolledBackFatal
  return .error e

/-- Attempts from number `n` on, with `left` more allowed after it. -/
def attempts [TransactionFailure ε] (R : Runner m) (spec : RunSpec)
    (work : Handle → m (Except ε α)) :
    (left n : Nat) → Phase → m (Except ε α)
  | 0, n, phase => R.round spec work n phase R.giveUp
  | left + 1, n, phase => R.round spec work n phase fun e =>
    match R.classOf e with
    | .fatal => R.giveUp e
    | .retryable => do
      R.observe .running .rolledBackRetry
      R.pause n
      R.attempts spec work left (n + 1) .rolledBackRetry

/-- Runs work in the transaction around it, or in transactions of its own. -/
def run [TransactionFailure ε] (R : Runner m) (spec : RunSpec) (work : Handle → m (Except ε α)) :
    m (Except ε α) := do
  match ← R.enclosing with
  | some handle => work handle
  | none => R.attempts spec work (spec.budget - 1) 1 .started

end Runner

end GuardedWrites

import GuardedWrites.Rehearsal.Stage

/-!
# Playing a script

Every statement becomes a program on the stage. Work that is run in a transaction plays the
statements of its attempt in order until one fails and is not caught, and ends with the value or
failure that the script says.

* `Play.perform` — the program of a statement;
* `Play.act` — a statement outside any transaction, played to its end.
-/

namespace GuardedWrites.Rehearsal

/-- A runner of a script: its store, its waits, and the codes worth another attempt if they are
given. -/
structure RunnerPlan where
  store : Nat
  backoff : BackoffPolicy
  codes : Option (List String)

/-- The guard of a script. -/
structure GuardPlan where
  rules : List (Rule Float)
  settings : LimiterSettings
  idempotency : Option IdempotencyConfig
  runner : Nat

/-- A guard without rules. -/
def GuardPlan.standard : GuardPlan := ⟨[], ⟨.standard, .standard⟩, none, 0⟩

/-- The runners and the guard of a script. -/
structure Cast where
  runners : List RunnerPlan
  guard : GuardPlan

/-- Failures that show no store error. -/
structure Concealed where
  failure : Failure

instance : TransactionFailure Concealed where
  ofStoreError e := ⟨.store e⟩
  storeError? _ := none

namespace Play

/-- Actions on the stage, inside a transaction or outside any. -/
abbrev Action := ReaderT Scope (Program Stage.service)

/-- A step on the stage. -/
def ask (r : Stage.Request) : Action (Stage.Reply r) := fun _ => Program.ask (S := Stage.service) r

/-- A runner of the script. -/
def runner (c : Cast) (index : Nat) : Runner Action :=
  let plan := c.runners[index]?.getD ⟨0, .none, none⟩
  { store := plan.store
    ask := fun r => ask (.store plan.store r)
    classify := match plan.codes with
      | some codes => Conflict.classifyByCodes codes
      | none => Conflict.classify
    backoff := plan.backoff
    draw := fun _ => 0
    observe := fun _ _ => pure () }

/-- The limiter of the script. -/
def limiter (c : Cast) : Limiter Float Action :=
  { settings := c.guard.settings, own := fun r => ask (.limiter r), remote := none }

/-- The guard of the script. -/
def mutationGuard (c : Cast) : MutationGuard Float Action :=
  { limiter := limiter c
    rules := c.guard.rules
    idempotency := c.guard.idempotency.map fun config =>
      { config := config, records := fun r => ask (.records r), now := ask .now }
    runner := runner c c.guard.runner }

/-- Runs work whose failures are of a kind. -/
def runWith (R : Runner Action) (spec : RunSpec) (work : Handle → Action (Except Failure Json)) :
    FailureKind → Action (Except Failure Json)
  | .any => R.run spec work
  | .storeErrors => do
    let r ← R.run spec fun h => do return (← work h).mapError Failure.toStoreError
    return r.mapError .store
  | .concealed => do
    let r ← R.run spec fun h => do return (← work h).mapError Concealed.mk
    return r.mapError Concealed.failure

/-- Runs work as a plan says. The result is none if the run was abandoned. -/
def runAs (c : Cast) (plan : RunPlan) (work : Handle → Action (Except Failure Json)) :
    Action (Option (Except Failure Json)) :=
  let whole := runWith (runner c plan.runner) plan.spec work plan.failures
  let whole := if plan.spawned then withTheReader Scope (fun _ => none) whole else whole
  match plan.timeout with
  | some d => Timed.within d whole
  | none => some <$> whole

/-- A store result as the result of a statement. -/
def ofStore {α : Type} (value : α → Value) (r : Except StoreError α) : Except Failure Value :=
  (r.map value).mapError .store

/-- The version that an update asks for, when `last` was seen by the last fetch. -/
def expectedVersion (last : Option UInt64) : Expected → Option UInt64
  | .anything => none
  | .version n => some n
  | .lastFetched => last

/-- Acts on the transaction of a handle. -/
def access (h : Handle) (last : Option UInt64) : Access → Action (Except Failure Value)
  | .context => pure (.ok (.context h.context))
  | .fetch table id => do return ofStore .fetched (← ask (.store h.store (.fetch h.tx table id)))
  | .insert table row => do
    return ofStore (fun _ => .nothing) (← ask (.store h.store (.insert h.tx table row)))
  | .update table id patch expected zero => do
    let r ← ask (.store h.store (.update h.tx table id patch (expectedVersion last expected)))
    match r, zero with
    | .ok 0, some f => return .error f
    | r, _ => return ofStore .count r

/-- Acts on the transaction of a handle, if there is one. -/
def accessAt (h : Option Handle) (last : Option UInt64) (a : Access) : Action Entry :=
  match h with
  | some h => Entry.plain <$> access h last a
  | none => pure (.plain (.error (.store .finished)))

/-- Acts on an entity. -/
def entity {α : Type} [Entity α] (R : Runner Action) (value : Versioned α → Value) :
    EntityAccess α → Action Entry
  | .create a => do return .plain ((← EntityStore.create R a).map value)
  | .read id => do return .plain ((← EntityStore.read α R id).map value)
  | .update id changes expected =>
      do return .plain ((← EntityStore.update (α := α) R id changes expected).map value)

/-- The work of a run: each invocation plays the next of the given attempts, the last one again when
they run out. -/
def work (depth : Nat) (attempts : List (Nat → Handle → Action (Except Failure Json)))
    (h : Handle) :
    Action (Except Failure Json) := do
  let n ← ask (.openAttempt depth)
  match (attempts[n]?).or attempts.getLast? with
  | some attempt => attempt depth h
  | none => return .ok .null

mutual

/-- The program of a statement, given the handle of the transaction that it stands in and what the
last fetch of the attempt has seen. -/
def perform (c : Cast) : Statement → (here : Option Handle) → (last : Option UInt64) → Action Entry
  | .seed db table row, _, _ => do
    ask (.seed db table row)
    return .plain (.ok .nothing)
  | .get db table id, _, _ => do return .plain (.ok (.found (← ask (.get db table id))))
  | .rowCount db table, _, _ => do return .plain (.ok (.count (← ask (.rowCount db table))))
  | .advance d, _, _ => do
    ask (.advance d)
    return .plain (.ok .nothing)
  | .sleep d, _, _ => do
    Timed.sleep d
    return .plain (.ok .nothing)
  | .room i a, _, _ => entity (runner c i) .room a
  | .document i a, _, _ => entity (runner c i) .document a
  | .access a, here, last => accessAt here last a
  | .leak slot, here, _ => do
    match here with
    | some h => ask (.keep slot h)
    | none => pure ()
    return .plain (.ok .nothing)
  | .leaked slot s, _, last => do perform c s (← ask (.kept slot)) last
  | .limiterState, _, _ => do
    let (counters, health) ← ask .limiterState
    return .plain (.ok (.limiter counters health))
  | .resetLimiter key, _, _ => do
    (limiter c).reset key
    return .plain (.ok .nothing)
  | .run plan attempts, _, _ => do
    let depth ← ask .openRun
    let r ← runAs c plan (work depth (blocks c attempts))
    let entries ← ask (.closeRun depth)
    match r with
    | some r => return .nested (r.map .returned) entries
    | none => return .nested (.ok .abandoned) entries
  | .mutate x attempts, _, _ => do
    let depth ← ask .openRun
    let r ← (mutationGuard c).execute (.json Json) x (work depth (blocks c attempts))
    let entries ← ask (.closeRun depth)
    return .nested (r.map .executed) entries
  | .caught s, here, last => perform c s here last
  | .finish _, _, _ => pure (.plain (.ok .nothing))
  | .hang, _, _ => Timed.hang

/-- The program of an attempt. -/
def block (c : Cast) : List Statement → (last : Option UInt64) → (depth : Nat) → Handle →
    Action (Except Failure Json)
  | [], _, _, _ => pure (.ok .null)
  | s :: rest, last, depth, h =>
    match s.ending? with
    | some result => pure result
    | none => do
      let e ← perform c s (some h) last
      ask (.note depth e)
      match e.result, s.isCaught with
      | .error f, false => return .error f
      | _, _ => block c rest (e.seen?.getD last) depth h

/-- The programs of the attempts of a run. -/
def blocks (c : Cast) : List (List Statement) → List (Nat → Handle → Action (Except Failure Json))
  | [] => []
  | b :: rest => block c b none :: blocks c rest

end

/-- Plays a statement outside any transaction; the number is the milliseconds it took. -/
def act (c : Cast) (w : Stage) (s : Statement) : Option Entry × Stage × Nat :=
  ((perform c s none none) none).run Stage.step w 0

end Play

end GuardedWrites.Rehearsal

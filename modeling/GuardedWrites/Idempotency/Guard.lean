import GuardedWrites.Idempotency.Records
import GuardedWrites.Text.Utf8

/-!
# Running an operation once

A guard runs an operation unless a completed record says that it already succeeded, and then replays
the stored result. A failed operation stores nothing. The exclusive variant keeps other exclusive
calls away with a pending marker while the operation runs.

* `IdempotencyGuard.execute`, `IdempotencyGuard.executeExclusive` — run or replay;
* `IdempotencyGuard.wasCompleted`, `IdempotencyGuard.getResult`, `IdempotencyGuard.clear` — look and
  forget.
-/

namespace GuardedWrites

/-- How results are stored as bytes. -/
structure ResultCodec (ρ : Type) where
  encode : ρ → Option (List UInt8)
  decode : List UInt8 → Option ρ

/-- Results stored as JSON text. -/
def ResultCodec.json (ρ : Type) [Format ρ] : ResultCodec ρ :=
  ⟨fun a => some (Text.bytes (Format.print a)), fun bs => (Text.ofBytes? bs).bind Format.parse?⟩

/-- A guard: its configuration, its store of records, and its clock. -/
structure IdempotencyGuard (m : Type → Type) where
  config : IdempotencyConfig
  records : RecordStore.service.Via m
  now : m Moment

namespace IdempotencyGuard

variable {m : Type → Type} [Monad m] {ρ : Type}

/-- The key that records of `key` are stored under. -/
def recordKey (g : IdempotencyGuard m) (key : String) : String := g.config.keyPrefix ++ key

/-- The stored result under a record key, if the operation completed. -/
def replay (g : IdempotencyGuard m) (codec : ResultCodec ρ) (recordKey : String) :
    m (Except Failure (Option ρ)) := do
  match ← g.records (.get recordKey) with
  | .error e => pure (.error (.backend e))
  | .ok none => pure (.ok none)
  | .ok (some r) =>
    if r.isCompleted then
      match codec.decode r.result with
      | some a => pure (.ok (some a))
      | none => pure (.error (.codec "the stored result cannot be decoded"))
    else pure (.ok none)

/-- Stores the result of an operation that took effect. A failure to do so is not the caller's. -/
def storeCompleted (g : IdempotencyGuard m) (codec : ResultCodec ρ) (recordKey : String)
    (result : ρ) :
    m Unit :=
  match codec.encode result with
  | none => pure ()
  | some bytes => do
    let now ← g.now
    let _ ← g.records (.put (.completed recordKey bytes now) g.config.recordTtl)

/-- Runs `operation` unless it already completed for `key`. Markers of exclusive calls are
ignored. -/
def execute (g : IdempotencyGuard m) (codec : ResultCodec ρ) (key : String)
    (operation : m (Except Failure ρ)) : m (Except Failure (Execution ρ)) := do
  match ← g.replay codec (g.recordKey key) with
  | .error e => pure (.error e)
  | .ok (some result) => pure (.ok ⟨false, result⟩)
  | .ok none =>
    match ← operation with
    | .error e => pure (.error e)
    | .ok result =>
      g.storeCompleted codec (g.recordKey key) result
      pure (.ok ⟨true, result⟩)

/-- Runs `operation` as the holder of the key: success replaces the marker, failure removes it. -/
def runClaimed (g : IdempotencyGuard m) (codec : ResultCodec ρ) (recordKey : String)
    (operation : m (Except Failure ρ)) : m (Except Failure (Execution ρ)) := do
  match ← operation with
  | .ok result =>
    g.storeCompleted codec recordKey result
    pure (.ok ⟨true, result⟩)
  | .error e =>
    let _ ← g.records (.remove recordKey)
    pure (.error e)

/-- Runs `operation` unless it already completed for `key`, and fails at once if another exclusive
call holds the key. -/
def executeExclusive (g : IdempotencyGuard m) (codec : ResultCodec ρ) (key : String)
    (operation : m (Except Failure ρ)) : m (Except Failure (Execution ρ)) := do
  match ← g.replay codec (g.recordKey key) with
  | .error e => pure (.error e)
  | .ok (some result) => pure (.ok ⟨false, result⟩)
  | .ok none =>
    let now ← g.now
    match ← g.records (.putIfAbsent (.pending (g.recordKey key) now) g.config.lockTtl) with
    | .error e => pure (.error (.backend e))
    | .ok true => g.runClaimed codec (g.recordKey key) operation
    | .ok false =>
      match ← g.replay codec (g.recordKey key) with
      | .error e => pure (.error e)
      | .ok (some result) => pure (.ok ⟨false, result⟩)
      | .ok none => pure (.error (.inProgress key))

/-- Whether the operation of `key` completed. -/
def wasCompleted (g : IdempotencyGuard m) (key : String) : m (Except Failure Bool) := do
  match ← g.records (.get (g.recordKey key)) with
  | .error e => pure (.error (.backend e))
  | .ok r => pure (.ok (r.any IdempotencyRecord.isCompleted))

/-- The stored result of `key`. -/
def getResult (g : IdempotencyGuard m) (codec : ResultCodec ρ) (key : String) :
    m (Except Failure (Option ρ)) :=
  g.replay codec (g.recordKey key)

/-- Forgets the record of `key`, so that the operation may run again. -/
def clear (g : IdempotencyGuard m) (key : String) : m (Except Failure Unit) := do
  match ← g.records (.remove (g.recordKey key)) with
  | .error e => pure (.error (.backend e))
  | .ok () => pure (.ok ())

end IdempotencyGuard

end GuardedWrites

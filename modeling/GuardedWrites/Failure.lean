import GuardedWrites.Decimal.Style
import GuardedWrites.Time.SpanText

/-!
# Failures

Every way in which a guard can fail, as a cause with its parts, and the message that tells it.

* `RuleFault` — a rule that cannot be enforced;
* `BuildFault` — a configuration that cannot be built;
* `StoreError` — the relational store failed, with its code if it gave one;
* `BackendError` — the remote key-value store failed;
* `Failure` — any failure that a caller of a guard may see.
-/

namespace GuardedWrites

/-- Why a rule cannot be enforced. -/
inductive RuleFault where
  | zeroMax
  | zeroWindow
  | zeroCapacity
  | invalidRefillRate
deriving DecidableEq

/-- The faults of rules by name. -/
def RuleFault.names : List (String × RuleFault) :=
  [("ZeroMax", .zeroMax), ("ZeroWindow", .zeroWindow), ("ZeroCapacity", .zeroCapacity),
    ("InvalidRefillRate", .invalidRefillRate)]

/-- The message of a rule fault. -/
def RuleFault.message : RuleFault → String
  | .zeroMax => "sliding window max must be greater than 0"
  | .zeroWindow => "sliding window length must be greater than 0"
  | .zeroCapacity => "token bucket capacity must be greater than 0"
  | .invalidRefillRate => "token bucket refill rate must be positive and finite"

/-- Why a limiter or a store cannot be built. -/
inductive BuildFault where
  | zeroMaxTrackedKeys
  | zeroRemoteTimeout
  | zeroFailureThreshold
deriving DecidableEq

/-- The faults of configurations by name. -/
def BuildFault.names : List (String × BuildFault) :=
  [("ZeroMaxTrackedKeys", .zeroMaxTrackedKeys), ("ZeroRemoteTimeout", .zeroRemoteTimeout),
    ("ZeroFailureThreshold", .zeroFailureThreshold)]

/-- The message of a build fault. -/
def BuildFault.message : BuildFault → String
  | .zeroMaxTrackedKeys => "max_tracked_keys must be greater than 0"
  | .zeroRemoteTimeout => "remote_timeout must be greater than 0"
  | .zeroFailureThreshold => "failure_threshold must be greater than 0"

/-- A failure of the relational store: the code it reported, if any, and its message. -/
structure StoreError where
  code : Option String
  message : String
deriving DecidableEq

namespace StoreError

/-- Code of a serialization failure. -/
def serializationFailureCode : String := "40001"

/-- Code of a detected deadlock. -/
def deadlockCode : String := "40P01"

/-- Code of a unique violation. -/
def uniqueViolationCode : String := "23505"

/-- Another transaction committed a change to the same row. -/
def serializationFailure : StoreError :=
  ⟨some serializationFailureCode, "could not serialize access due to concurrent update"⟩

/-- Two transactions wait for each other. -/
def deadlock : StoreError := ⟨some deadlockCode, "deadlock detected"⟩

/-- A row with the same key exists. -/
def uniqueViolation (what : String) : StoreError :=
  ⟨some uniqueViolationCode, "duplicate key: " ++ what⟩

/-- A handle was used after its transaction ended. -/
def finished : StoreError := ⟨none, "transaction already finished"⟩

end StoreError

/-- A failure of the remote key-value store. -/
inductive BackendError where
  | unavailable (reason : String)
  | timeout (after : Span)
  | protocol (reason : String)

/-- The message of a remote failure. -/
def BackendError.message : BackendError → String
  | .unavailable reason => "backing store unavailable: " ++ reason
  | .timeout d => "backing store timed out after " ++ d.text
  | .protocol reason => "unexpected backing store response: " ++ reason

/-- A failure that a caller of a guard may see. -/
inductive Failure where
  | invalidRule (fault : RuleFault)
  | rateLimitExceeded (retryAfterSecs : Float)
  | versionConflict (expected actual : UInt64)
  | notFound (entity id : String)
  | versionNotWritable
  | invalidChanges (reason : String)
  | inProgress (key : String)
  | rejected (reason : String)
  | store (error : StoreError)
  | backend (error : BackendError)
  | codec (reason : String)

namespace Failure

/-- The message of a failure. -/
def message : Failure → String
  | .invalidRule fault => fault.message
  | .rateLimitExceeded secs => "too many requests, retry after " ++
      Decimal.twoPlaces secs ++ " seconds"
  | .versionConflict expected actual =>
    "resource changed (expected version " ++ toString expected ++ ", found " ++ toString actual ++
      "), reload and retry"
  | .notFound entity id => entity ++ " " ++ id ++ " not found"
  | .versionNotWritable => "version is server-managed and cannot be part of the changes"
  | .invalidChanges reason => "invalid changes: " ++ reason
  | .inProgress key => "operation for idempotency key " ++ key ++ " is already in progress"
  | .rejected reason => reason
  | .store error => error.message
  | .backend error => error.message
  | .codec reason => "failed to encode or decode stored value: " ++ reason

/-- The failure as a store error: a store error itself, and any other one without code. -/
def toStoreError : Failure → StoreError
  | .store error => error
  | f => ⟨none, f.message⟩

end Failure

/-- Failures of a transaction. Only the store error behind a failure, if there is one, decides
whether the transaction is tried again. -/
class TransactionFailure (ε : Type) where
  ofStoreError : StoreError → ε
  storeError? : ε → Option StoreError

instance : TransactionFailure Failure where
  ofStoreError := .store
  storeError?
    | .store e => some e
    | _ => none

instance : TransactionFailure StoreError where
  ofStoreError e := e
  storeError? := some

end GuardedWrites

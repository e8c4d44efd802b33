import GuardedWrites.Failure
import GuardedWrites.Text.Fold

/-!
# Which store errors are worth another attempt

Conflicts, deadlocks and lock timeouts pass; everything else will fail again. They are known by the
code of the error or by a fragment of its message in any case.
-/

namespace GuardedWrites

/-- Whether a failed attempt is worth another one. -/
inductive ErrorClass where
  | retryable
  | fatal
deriving DecidableEq

/-- The classes by name. -/
def ErrorClass.names : List (String × ErrorClass) := [("Retryable", .retryable), ("Fatal", .fatal)]

namespace Conflict

/-- The codes of a passing conflict. -/
def codes : List String :=
  [StoreError.serializationFailureCode, StoreError.deadlockCode, "1213", "1205"]

/-- What the message of a passing conflict contains, in lower case. -/
def fragments : List String :=
  ["deadlock", "could not serialize", "serialization failure", "lock wait timeout",
    "database is locked", "try restarting transaction"]

/-- Classifies an error by its code, then by its message. -/
def classify (e : StoreError) : ErrorClass :=
  if e.code.any fun c => codes.contains c then .retryable
  else
    let message := Text.fold e.message
    if fragments.any fun f => Text.occursIn f.toList message then .retryable else .fatal

/-- Classifies by a given set of codes alone. -/
def classifyByCodes (retryable : List String) (e : StoreError) : ErrorClass :=
  if e.code.any fun c => retryable.contains c then .retryable else .fatal

end Conflict

end GuardedWrites

import GuardedWrites.Failure
import GuardedWrites.Rate.Amount

/-!
# Decisions and reports

What one rule says about a request (`Outcome`), what a check of several rules says (`Verdict`), and
what can be read about rules without counting a request (`RuleStatus`, `StatusReport`).
-/

namespace GuardedWrites

/-- What one rule says: admitted with `remaining` left, or denied for `retryAfter`. -/
structure Outcome where
  allowed : Bool
  remaining : Nat
  retryAfter : Span
deriving DecidableEq

namespace Outcome

/-- Admitted, with that many left. -/
def allow (remaining : Nat) : Outcome := ⟨true, remaining, .zero⟩

/-- Denied for a time. -/
def deny (retryAfter : Span) : Outcome := ⟨false, 0, retryAfter⟩

end Outcome

/-- The largest count that is reported. -/
def countLimit : Nat := UInt64.size - 1

/-- What a check of several rules says. -/
structure Verdict where
  allowed : Bool
  remaining : Nat
  retryAfterSecs : Float

namespace Verdict

/-- The verdict of no rules at all. -/
def unrestricted : Verdict := ⟨true, countLimit, 0⟩

/-- The wait as a span. -/
def retryAfter (v : Verdict) : Span := .ofSeconds v.retryAfterSecs

/-- A denial as a failure. -/
def toExcept (v : Verdict) : Except Failure Verdict :=
  if v.allowed then .ok v else .error (.rateLimitExceeded v.retryAfterSecs)

end Verdict

/-- What can be read about one rule: the count in the window or the tokens spent, what would still
be admitted, and the wait if nothing would. -/
structure RuleStatus where
  label : String
  limit : Nat
  used : Nat
  remaining : Nat
  retryAfterSecs : Float

/-- The place that answered a status read. -/
inductive ServedBy where
  | remote
  | here
deriving DecidableEq

/-- The state of all rules of a key, in their order. -/
structure StatusReport where
  key : String
  rules : List RuleStatus
  servedBy : ServedBy

end GuardedWrites

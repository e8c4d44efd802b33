import GuardedWrites.Failure
import GuardedWrites.Json.Format
import GuardedWrites.Rate.Amount

/-!
# Rate rules

A rule limits the requests of one key, either to a number per trailing window or by a bucket of
tokens that refills at a steady rate. Its label names its state among the rules of a key.
-/

namespace GuardedWrites

/-- At most `max` requests within any trailing window. -/
structure WindowLimit where
  max : Nat
  windowSecs : Nat
deriving DecidableEq

/-- Bursts up to `capacity`, refilled at `refillRate` tokens per second. -/
structure BucketLimit (ν : Type) where
  capacity : Nat
  refillRate : ν

/-- The algorithm of a rule with its parameters. -/
inductive Algorithm (ν : Type) where
  | window (limit : WindowLimit)
  | bucket (limit : BucketLimit ν)

/-- A rule, labelled by `id` or else by its parameters. -/
structure Rule (ν : Type) where
  id : Option String
  algorithm : Algorithm ν

namespace WindowLimit

/-- The length of the window. -/
def window (l : WindowLimit) : Span := .ofSecs l.windowSecs

/-- Why the limit cannot be enforced, if so. -/
def fault? (l : WindowLimit) : Option RuleFault :=
  if l.max = 0 then some .zeroMax else if l.windowSecs = 0 then some .zeroWindow else none

end WindowLimit

namespace BucketLimit

variable {ν : Type} [Amount ν]

/-- The time in which an empty bucket is full again, in whole seconds. -/
def fullRefill (l : BucketLimit ν) : Span :=
  Amount.toSpan (Amount.ceil (Amount.ofNat l.capacity / l.refillRate))

/-- Why the limit cannot be enforced, if so. -/
def fault? (l : BucketLimit ν) : Option RuleFault :=
  if l.capacity = 0 then some .zeroCapacity
  else if Amount.isRate l.refillRate then none
  else some .invalidRefillRate

end BucketLimit

namespace Algorithm

variable {ν : Type} [Amount ν]

/-- Why the algorithm cannot be enforced, if so. -/
def fault? : Algorithm ν → Option RuleFault
  | .window l => l.fault?
  | .bucket l => l.fault?

/-- The label of a rule without an id. -/
def label : Algorithm ν → String
  | .window l => "sw:" ++ toString l.max ++ ":" ++ toString l.windowSecs
  | .bucket l => "tb:" ++ toString l.capacity ++ ":" ++ Amount.label l.refillRate

/-- Requests admitted at once from a fresh state. -/
def limit : Algorithm ν → Nat
  | .window l => l.max
  | .bucket l => l.capacity

/-- How long idle state means anything. -/
def ttl : Algorithm ν → Span
  | .window l => l.window
  | .bucket l => l.fullRefill

end Algorithm

namespace Rule

variable {ν : Type} [Amount ν]

/-- Why the rule cannot be enforced, if so. -/
def fault? (r : Rule ν) : Option RuleFault := r.algorithm.fault?

/-- The name of the rule's state under a key. -/
def label (r : Rule ν) : String := r.id.getD r.algorithm.label

/-- Requests admitted at once from a fresh state. -/
def limit (r : Rule ν) : Nat := r.algorithm.limit

/-- How long idle state of the rule means anything. -/
def ttl (r : Rule ν) : Span := r.algorithm.ttl

/-- A rule without an id, if it can be enforced. -/
def ofAlgorithm (a : Algorithm ν) : Except RuleFault (Rule ν) :=
  match a.fault? with
  | some fault => .error fault
  | none => .ok ⟨none, a⟩

/-- A window rule, if it can be enforced. -/
def slidingWindow (max windowSecs : Nat) : Except RuleFault (Rule ν) :=
  ofAlgorithm (.window ⟨max, windowSecs⟩)

/-- A bucket rule, if it can be enforced. -/
def tokenBucket (capacity : Nat) (refillRate : ν) : Except RuleFault (Rule ν) :=
  ofAlgorithm (.bucket ⟨capacity, refillRate⟩)

/-- The rule under another label. -/
def withId (r : Rule ν) (id : String) : Rule ν := { r with id := some id }

/-- The fault of the first rule that cannot be enforced. -/
def firstFault? : List (Rule ν) → Option RuleFault
  | [] => none
  | r :: rest => match r.fault? with
    | some fault => some fault
    | none => firstFault? rest

end Rule

end GuardedWrites

import GuardedWrites.Rate.Outcome
import GuardedWrites.Rate.Rule
import GuardedWrites.Time.Moment

/-!
# Token buckets

A `Bucket` holds a number of tokens and the moment for which that number was true. What has flowed
in since is computed anew for each request, so a denied request leaves the bucket as it was, and a
clock that steps back brings no tokens.

* `Bucket.take` — judges a request and spends a token if there is one;
* `Bucket.status` — reads the counts and changes nothing.
-/

namespace GuardedWrites

/-- Tokens at a moment. -/
structure Bucket (ν : Type) where
  tokens : ν
  lastRefill : Moment

namespace Bucket

variable {ν : Type} [Amount ν]

/-- A full bucket. -/
def full (l : BucketLimit ν) (now : Moment) : Bucket ν := ⟨Amount.ofNat l.capacity, now⟩

/-- The tokens at `now`, at most the capacity. -/
def refilled (b : Bucket ν) (l : BucketLimit ν) (now : Moment) : ν :=
  Amount.smaller (b.tokens + Amount.ofSpan (b.lastRefill.elapsed now) * l.refillRate)
    (Amount.ofNat l.capacity)

/-- The time until `tokens` have become one. -/
def wait (tokens : ν) (l : BucketLimit ν) : Span :=
  Amount.toSpan ((Amount.ofNat 1 - tokens) / l.refillRate)

/-- Whether a number of tokens is enough for a request. -/
def enough (tokens : ν) : Bool := Amount.atMost (Amount.ofNat 1) (tokens + Amount.tolerance)

/-- The whole requests that a number of tokens is enough for. -/
def requests (tokens : ν) : Nat := Amount.wholes (tokens + Amount.tolerance)

/-- Judges a request at `now`. -/
def take (b : Bucket ν) (l : BucketLimit ν) (now : Moment) : Outcome × Bucket ν :=
  let tokens := b.refilled l now
  if enough tokens then
    let left := Amount.larger (tokens - Amount.ofNat 1) (Amount.ofNat 0)
    (.allow (requests left), ⟨left, b.lastRefill.latest now⟩)
  else (.deny (wait tokens l), b)

/-- The counts at `now`. -/
def status (b : Bucket ν) (l : BucketLimit ν) (label : String) (now : Moment) : RuleStatus :=
  let tokens := b.refilled l now
  let remaining := requests tokens
  { label := label
    limit := l.capacity
    used := l.capacity - remaining
    remaining := remaining
    retryAfterSecs := (if 0 < remaining then Span.zero else wait tokens l).seconds }

end Bucket

end GuardedWrites

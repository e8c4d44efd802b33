import GuardedWrites.Rate.Bucket
import GuardedWrites.Rate.Exact
import Mathlib.Data.Rat.Floor

/-!
# Exact tokens

Facts about buckets that count their tokens in fractions: how many requests a number of tokens is
enough for, and what is left of them after one.

* `Bucket.enough_iff` — a number of tokens is enough for a request if it is enough for at least one;
* `Bucket.requests_spend` — a request takes one of the requests that were left;
* `Bucket.requests_refilled_le` — there are never more than the capacity.
-/

namespace GuardedWrites

namespace Bucket

variable {tokens : Rat}

/-- The tokens after one request. -/
def spend (tokens : Rat) : Rat := Amount.larger (tokens - Amount.ofNat 1) (Amount.ofNat 0)

theorem ofNat_eq_cast (n : Nat) : (Amount.ofNat n : Rat) = n := Rat.mkRat_one n

theorem tolerance_lt_one : (Amount.tolerance : Rat) < 1 := by
  decide +kernel

theorem requests_eq (tokens : Rat) :
    requests tokens = (tokens + Amount.tolerance : Rat).floor.toNat := rfl

theorem enough_iff_le : enough tokens = true ↔ (1 : Rat) ≤ tokens + Amount.tolerance := by
  rw [← not_lt]
  show (!Rat.blt (tokens + Amount.tolerance) 1) = true ↔ _
  rw [Bool.not_eq_true', ← Bool.not_eq_true]
  rfl

/-- A number of tokens is enough for a request if it is enough for at least one. -/
theorem enough_iff : enough tokens = true ↔ 0 < requests tokens := by
  have hfloor : (1 : Int) ≤ (tokens + Amount.tolerance : Rat).floor ↔
      (1 : Rat) ≤ tokens + Amount.tolerance :=
    Rat.le_floor_iff
  rw [enough_iff_le, ← hfloor, requests_eq]
  omega

theorem spend_eq (tokens : Rat) : spend tokens = if tokens - 1 < 0 then 0 else tokens - 1 := rfl

/-- A request takes one of the requests that were left, if there were any. -/
theorem requests_spend (tokens : Rat) : requests (spend tokens) = requests tokens - 1 := by
  rw [spend_eq, requests_eq, requests_eq]
  split
  · -- the tolerance made up for what a token lacked, and for no more than one
    rename_i hlack
    have hnone : (0 + Amount.tolerance : Rat).floor < 1 := by
      rw [Rat.floor_lt_iff, zero_add]
      exact_mod_cast tolerance_lt_one
    have hone : (tokens + Amount.tolerance : Rat).floor < 2 := by
      rw [Rat.floor_lt_iff]
      have := tolerance_lt_one
      push_cast
      linarith
    omega
  · have hshift : (tokens - 1 + Amount.tolerance : Rat) = tokens + Amount.tolerance - 1 := by ring
    rw [hshift, Rat.floor_sub_one]
    omega

theorem smaller_le_right (x y : Rat) : Amount.smaller x y ≤ y := by
  show (if Rat.blt y x then y else x) ≤ y
  split
  · exact le_rfl
  · rename_i h
    exact not_lt.1 h

theorem refilled_le (b : Bucket Rat) (l : BucketLimit Rat) (now : Moment) :
    b.refilled l now ≤ (l.capacity : Rat) := by
  rw [← ofNat_eq_cast]
  exact smaller_le_right _ _

/-- There are never more requests left than the capacity. -/
theorem requests_refilled_le (b : Bucket Rat) (l : BucketLimit Rat) (now : Moment) :
    requests (b.refilled l now) ≤ l.capacity := by
  have hle := b.refilled_le l now
  have hfloor : (b.refilled l now + Amount.tolerance : Rat).floor < (l.capacity : Int) + 1 := by
    rw [Rat.floor_lt_iff]
    have := tolerance_lt_one
    push_cast
    linarith
  rw [requests_eq]
  omega

end Bucket

end GuardedWrites

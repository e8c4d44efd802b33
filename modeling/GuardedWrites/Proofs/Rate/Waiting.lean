import GuardedWrites.Proofs.Rate.Tokens
import GuardedWrites.Proofs.Time.Elapsed
import Mathlib.Tactic.FieldSimp
import Mathlib.Tactic.Linarith

/-!
# The wait of a token bucket

A denied take is told how long it takes until one token is there. That time is rounded to whole
nanoseconds, and a take is admitted for a token that is not quite there. So the wait is right as
long as the rounding cuts off no more than the tolerance covers, and that depends on the rate.

* `nearestNanos_within_half` — the rounded time is half a nanosecond off at most;
* `Bucket.allowed_take_iff`, `Bucket.refilled_eq` — a take by the exact number of tokens;
* `Bucket.refilled_later` — what flows in until a later moment;
* `Bucket.admitted_after_wait_iff` — when a take after the wait is admitted.
-/

namespace GuardedWrites

/-! ### Rounding -/

theorem nanosPerSecond_pos : (0 : ℚ) < nanosPerSecond := by
  rw [nanosPerSecond]
  norm_num

/-- A number of seconds in nanoseconds. -/
def inNanos (x : ℚ) : ℚ := x * nanosPerSecond

section Rounding

variable {x : ℚ}

/-- The nearest whole number of nanoseconds. -/
def nearestNanos (x : ℚ) : Nat := Decimal.roundDiv .toEven (x.num.toNat * nanosPerSecond) x.den

theorem inNanos_mul_den (hx : 0 ≤ x) :
    inNanos x * x.den = (x.num.toNat * nanosPerSecond : Nat) := by
  have hnum : ((x.num.toNat : Nat) : ℚ) = x.num := by
    exact_mod_cast Int.toNat_of_nonneg (Rat.num_nonneg.2 hx)
  have hx' : x * x.den = x.num := Rat.mul_den_eq_num x
  unfold inNanos
  push_cast
  rw [hnum, ← hx']
  ring

theorem nearestNanos_within_half (hx : 0 ≤ x) :
    2 * inNanos x ≤ 2 * nearestNanos x + 1 ∧ 2 * (nearestNanos x : ℚ) ≤ 2 * inNanos x + 1 := by
  have hden : (0 : ℚ) < x.den := by exact_mod_cast x.den_pos
  obtain ⟨habove, hbelow⟩ :=
    Decimal.roundDiv_within_half .toEven (x.num.toNat * nanosPerSecond) x.den x.den_pos
  have habove : 2 * (inNanos x * x.den) ≤ (2 * nearestNanos x + 1) * x.den := by
    rw [inNanos_mul_den hx]
    exact_mod_cast habove
  have hbelow : 2 * (nearestNanos x : ℚ) * x.den ≤ 2 * (inNanos x * x.den) + x.den := by
    rw [inNanos_mul_den hx]
    exact_mod_cast hbelow
  constructor
  · refine le_of_mul_le_mul_right ?_ hden
    linarith
  · refine le_of_mul_le_mul_right ?_ hden
    linarith

theorem nearestNanos_pos_iff (hx : 0 ≤ x) : 0 < nearestNanos x ↔ 1 < 2 * inNanos x := by
  have hden : (0 : ℚ) < x.den := by exact_mod_cast x.den_pos
  have hzero : nearestNanos x = 0 ↔ 2 * inNanos x ≤ 1 := by
    unfold nearestNanos
    rw [Decimal.roundDiv_toEven_eq_zero_iff _ x.den_pos, ← mul_le_mul_iff_of_pos_right hden,
      mul_assoc, inNanos_mul_den hx, one_mul]
    norm_cast
  rw [Nat.pos_iff_ne_zero, ne_eq, hzero, not_le]

/-- A wait that is not cut to the longest span is the nearest number of nanoseconds. -/
theorem Span.nanos_ofFraction (h : Span.ofFraction x < .longest) :
    (Span.ofFraction x).nanos = nearestNanos x := by
  have h : min (nearestNanos x) spanLimit < spanLimit := h
  show min (nearestNanos x) spanLimit = nearestNanos x
  omega

end Rounding

/-! ### Exact takes -/

/-- A moment that has not come before another one is as long ago as the clock tells, if a span can
hold it. -/
theorem Moment.nanos_elapsed {since now : Moment} (h : since ≤ now)
    (hclock : now.nanos - since.nanos ≤ spanLimit) :
    ((since.elapsed now).nanos : Int) = now.nanos - since.nanos := by
  have h : since.nanos ≤ now.nanos := h
  show ((min (now.nanos - since.nanos).toNat spanLimit : Nat) : Int) = _
  omega

namespace Bucket

variable {b : Bucket ℚ} {l : BucketLimit ℚ} {t now : Moment}

theorem rate_pos (hl : l.fault? = none) : 0 < l.refillRate := by
  unfold BucketLimit.fault? at hl
  split at hl
  · cases hl
  · split at hl
    · rename_i h
      exact h
    · cases hl

theorem one_le_capacity (hl : l.fault? = none) : (1 : ℚ) ≤ l.capacity := by
  unfold BucketLimit.fault? at hl
  split at hl
  · cases hl
  · rename_i h
    exact_mod_cast Nat.pos_of_ne_zero h

theorem tolerance_eq :
    (Amount.tolerance : ℚ) = 1 / nanosPerSecond := Rat.mkRat_eq_div 1 nanosPerSecond

theorem smaller_eq_min (x y : ℚ) : Amount.smaller x y = min x y := by
  show (if Rat.blt y x then y else x) = _
  split
  · rename_i h
    have h : y < x := h
    exact (min_eq_right h.le).symm
  · rename_i h
    have h : ¬ y < x := h
    exact (min_eq_left (not_lt.1 h)).symm

/-- The tokens that flow in during some nanoseconds. -/
def inflow (l : BucketLimit ℚ) (nanos : Nat) : ℚ := nanos / nanosPerSecond * l.refillRate

/-- The tokens at a moment: those that were there and what has flowed in, at most the capacity. -/
theorem refilled_eq (b : Bucket ℚ) (l : BucketLimit ℚ) (now : Moment) :
    b.refilled l now = min (b.tokens + inflow l (b.lastRefill.elapsed now).nanos) l.capacity := by
  have hspan : (Amount.ofSpan (b.lastRefill.elapsed now) : ℚ) =
      (b.lastRefill.elapsed now).nanos / nanosPerSecond :=
    Rat.mkRat_eq_div _ _
  rw [inflow, ← hspan, ← ofNat_eq_cast, ← smaller_eq_min]
  rfl

theorem allowed_take_iff (b : Bucket ℚ) (l : BucketLimit ℚ) (now : Moment) :
    (b.take l now).1.allowed = true ↔ 1 ≤ b.refilled l now + 1 / nanosPerSecond := by
  rw [← tolerance_eq, ← enough_iff_le, take]
  dsimp only
  split
  · rename_i h
    exact ⟨fun _ => h, fun _ => rfl⟩
  · rename_i h
    exact ⟨nofun, fun h' => absurd h' h⟩

theorem take_of_denied (hd : (b.take l now).1.allowed = false) :
    b.take l now = (.deny (wait (b.refilled l now) l), b) := by
  unfold take at hd ⊢
  dsimp only at hd ⊢
  split
  · rename_i h
    rw [if_pos h] at hd
    cases hd
  · rfl

theorem lt_one_of_denied (hd : (b.take l now).1.allowed = false) : b.refilled l now < 1 := by
  have hlack : ¬ 1 ≤ b.refilled l now + 1 / nanosPerSecond := by
    rw [← allowed_take_iff, hd]
    exact nofun
  have hpos : (0 : ℚ) < 1 / nanosPerSecond := one_div_pos.2 nanosPerSecond_pos
  linarith [not_le.1 hlack]

/-- As long as there is room in the bucket, what flows in from one moment to a later one is
there. -/
theorem refilled_later {later : Moment} (hl : l.fault? = none) (ht : b.lastRefill ≤ t)
    (hlater : t ≤ later) (hclock : later.nanos - b.lastRefill.nanos ≤ spanLimit)
    (hroom : b.refilled l t < 1) :
    b.refilled l later =
      min (b.refilled l t + inflow l (later.nanos - t.nanos).toNat) l.capacity := by
  have hcapacity := one_le_capacity hl
  have hle : t.nanos ≤ later.nanos := hlater
  have helapsed : ((b.lastRefill.elapsed later).nanos : Int) =
      (b.lastRefill.elapsed t).nanos + (later.nanos - t.nanos).toNat := by
    rw [Moment.nanos_elapsed (Moment.le_trans ht hlater) hclock, Moment.nanos_elapsed ht (by omega)]
    omega
  have helapsed : (b.lastRefill.elapsed later).nanos =
      (b.lastRefill.elapsed t).nanos + (later.nanos - t.nanos).toNat := by exact_mod_cast helapsed
  rw [refilled_eq] at hroom
  have hnow : min (b.tokens + inflow l (b.lastRefill.elapsed t).nanos) l.capacity =
      b.tokens + inflow l (b.lastRefill.elapsed t).nanos := by
    refine min_eq_left (le_of_not_gt fun h => ?_)
    rw [min_eq_right h.le] at hroom
    linarith
  rw [refilled_eq, refilled_eq, hnow, helapsed]
  congr 1
  unfold inflow
  push_cast
  ring

/-- The exact time, in nanoseconds, until some tokens have become one. -/
def exactWait (tokens : ℚ) (l : BucketLimit ℚ) : ℚ := inNanos ((1 - tokens) / l.refillRate)

theorem exactWait_inflow (tokens : ℚ) (hl : l.fault? = none) :
    exactWait tokens l / nanosPerSecond * l.refillRate = 1 - tokens := by
  have hrate := (rate_pos hl).ne'
  have hnanos := nanosPerSecond_pos.ne'
  unfold exactWait inNanos
  field_simp

/-- The wait of a denied take is the exact one, rounded to whole nanoseconds. -/
theorem nanos_retryAfter (hd : (b.take l t).1.allowed = false)
    (hr : (b.take l t).1.retryAfter < .longest) :
    (b.take l t).1.retryAfter.nanos = nearestNanos ((1 - b.refilled l t) / l.refillRate) := by
  have hwait : (b.take l t).1.retryAfter = .ofFraction ((1 - b.refilled l t) / l.refillRate) := by
    rw [take_of_denied hd]
    rfl
  rw [hwait] at hr ⊢
  exact Span.nanos_ofFraction hr

/-- A take is admitted when what has flowed in since a denied one makes up for what was lacking, up
to the tolerance. -/
theorem allowed_later_iff {later : Moment} (hl : l.fault? = none) (ht : b.lastRefill ≤ t)
    (hlater : t ≤ later) (hclock : later.nanos - b.lastRefill.nanos ≤ spanLimit)
    (hd : (b.take l t).1.allowed = false) :
    (b.take l later).1.allowed = true ↔
      (exactWait (b.refilled l t) l - (later.nanos - t.nanos).toNat) / nanosPerSecond *
          l.refillRate ≤
        1 / nanosPerSecond := by
  have hcapacity := one_le_capacity hl
  have hpos : (0 : ℚ) < 1 / nanosPerSecond := one_div_pos.2 nanosPerSecond_pos
  rw [allowed_take_iff, refilled_later hl ht hlater hclock (lt_one_of_denied hd), sub_div, sub_mul,
    exactWait_inflow _ hl, ← inflow, ← min_add_add_right, le_min_iff]
  constructor
  · rintro ⟨h, -⟩
    linarith
  · intro h
    constructor <;> linarith

theorem within_tolerance_iff (lack : ℚ) (l : BucketLimit ℚ) :
    lack / nanosPerSecond * l.refillRate ≤ 1 / nanosPerSecond ↔ lack * l.refillRate ≤ 1 := by
  rw [div_mul_eq_mul_div, div_le_div_iff_of_pos_right nanosPerSecond_pos]

/-- What a denied take lacks is more than the tolerance. -/
theorem one_lt_exactWait_mul (hl : l.fault? = none) (hd : (b.take l t).1.allowed = false) :
    1 < exactWait (b.refilled l t) l * l.refillRate := by
  have hlack : ¬ 1 ≤ b.refilled l t + 1 / nanosPerSecond := by
    rw [← allowed_take_iff, hd]
    exact nofun
  rw [← not_le, ← within_tolerance_iff, exactWait_inflow _ hl]
  intro h
  exact hlack (by linarith)

/-- **What the wait of a denied take is worth.** It is the exact time until one token is there,
rounded to whole nanoseconds. So it is positive if more than half a nanosecond is lacking. A take
after it is admitted exactly if what the rounding has cut off brings no more tokens than the
tolerance: always, if the rate is at most two tokens a second. One nanosecond later a take is
admitted at any rate. The readings of the clock are no further apart than a span can hold. -/
theorem admitted_after_wait_iff (hl : l.fault? = none) (ht : b.lastRefill ≤ t)
    (hd : (b.take l t).1.allowed = false) (hr : (b.take l t).1.retryAfter < .longest)
    (hclock : (t.later (b.take l t).1.retryAfter).nanos - b.lastRefill.nanos ≤ spanLimit) :
    let r := (b.take l t).1.retryAfter
    let b' := (b.take l t).2
    let lack := exactWait (b.refilled l t) l
    |lack - r.nanos| ≤ 1 / 2 ∧ (.zero < r ↔ 1 / 2 < lack) ∧
      ((b'.take l (t.later r)).1.allowed = true ↔
        (lack - r.nanos) / nanosPerSecond * l.refillRate ≤ Amount.tolerance) ∧
      (l.refillRate ≤ 2 → .zero < r ∧ (b'.take l (t.later r)).1.allowed = true) ∧
      ∀ later, t.later r < later → later.nanos - b.lastRefill.nanos ≤ spanLimit →
        (b'.take l later).1.allowed = true := by
  intro r b' lack
  have hsame : b' = b := congrArg Prod.snd (take_of_denied hd)
  have hrate := rate_pos hl
  have hlack : 0 ≤ (1 - b.refilled l t) / l.refillRate :=
    div_nonneg (sub_nonneg.2 (lt_one_of_denied hd).le) hrate.le
  have hround : r.nanos = nearestNanos ((1 - b.refilled l t) / l.refillRate) :=
      nanos_retryAfter hd hr
  obtain ⟨habove, hbelow⟩ := nearestNanos_within_half hlack
  rw [← hround] at habove hbelow
  have habove : 2 * lack ≤ 2 * r.nanos + 1 := habove
  have hbelow : 2 * (r.nanos : ℚ) ≤ 2 * lack + 1 := hbelow
  have hpos : Span.zero < r ↔ 1 / 2 < lack := by
    have hiff := nearestNanos_pos_iff hlack
    rw [← hround] at hiff
    show 0 < r.nanos ↔ _
    rw [hiff]
    show 1 < 2 * lack ↔ _
    constructor <;> intro h <;> linarith
  have hspent : ((t.later r).nanos - t.nanos).toNat = r.nanos := by
    show (t.nanos + (r.nanos : Int) - t.nanos).toNat = r.nanos
    omega
  have hafter : t ≤ t.later r := by
    show t.nanos ≤ t.nanos + (r.nanos : Int)
    omega
  have hadmitted := allowed_later_iff hl ht hafter hclock hd
  rw [hspent, ← tolerance_eq] at hadmitted
  rw [hsame]
  refine ⟨?_, hpos, hadmitted, fun hslow => ⟨hpos.2 ?_, hadmitted.2 ?_⟩,
    fun later hlater hclock' => ?_⟩
  · rw [abs_le]
    constructor <;> linarith
  · -- the tolerance, of which more was lacking, flows in during half a nanosecond at the least
    have hmore : 1 < lack * l.refillRate := one_lt_exactWait_mul hl hd
    by_contra hle
    have hhalf : lack * l.refillRate ≤ 1 / 2 * l.refillRate :=
        mul_le_mul_of_nonneg_right (not_lt.1 hle) hrate.le
    linarith
  · rw [tolerance_eq, within_tolerance_iff]
    have hhalf : (lack - r.nanos) * l.refillRate ≤ 1 / 2 * l.refillRate :=
      mul_le_mul_of_nonneg_right (by linarith) hrate.le
    linarith
  · have hlater : t.nanos + (r.nanos : Int) < later.nanos := hlater
    have hle : t ≤ later := by
      show t.nanos ≤ later.nanos
      omega
    have hspent : (r.nanos : ℚ) + 1 ≤ (later.nanos - t.nanos).toNat := by
      exact_mod_cast show r.nanos + 1 ≤ (later.nanos - t.nanos).toNat by omega
    rw [allowed_later_iff hl ht hle hclock' hd, within_tolerance_iff]
    have hnone : (lack - (later.nanos - t.nanos).toNat) * l.refillRate ≤ 0 :=
      mul_nonpos_of_nonpos_of_nonneg (by linarith) hrate.le
    exact hnone.trans zero_le_one

/-- A bucket for one token, empty since the epoch. -/
def spentAtEpoch (l : BucketLimit ℚ) : Bucket ℚ := ((full l .epoch).take l .epoch).2

/-- Two tokens a second, one at a time. -/
def twoASecond : BucketLimit ℚ := ⟨1, 2⟩

/-- Three hundred tokens a second, one at a time. -/
def threeHundredASecond : BucketLimit ℚ := ⟨1, 300⟩

/-- The take that comes next, at the same moment. -/
def nextAtEpoch (l : BucketLimit ℚ) : Outcome × Bucket ℚ := (spentAtEpoch l).take l .epoch

/-- At two tokens a second the wait of half a second is enough. At three hundred a take after the
wait of 3333333 nanoseconds comes too early, and one nanosecond later it is admitted. -/
theorem admitted_after_wait_iff_twoRates :
    twoASecond.fault? = none ∧ threeHundredASecond.fault? = none ∧
      (nextAtEpoch twoASecond).1 = .deny (.ofMillis 500) ∧
      ((nextAtEpoch twoASecond).2.take twoASecond (Moment.epoch.later (.ofMillis 500))).1.allowed =
        true ∧
      (nextAtEpoch threeHundredASecond).1 = .deny (.ofNanos 3333333) ∧
      ((nextAtEpoch threeHundredASecond).2.take threeHundredASecond ⟨3333334⟩).1.allowed =
        true := by
  have htwo : (nextAtEpoch twoASecond).1 = .deny (.ofMillis 500) := by decide +kernel
  have hthree : (nextAtEpoch threeHundredASecond).1 = .deny (.ofNanos 3333333) := by decide +kernel
  have hslow := admitted_after_wait_iff (l := twoASecond) (b := spentAtEpoch twoASecond)
    (t := .epoch) (by decide +kernel) (by decide +kernel) (by decide +kernel) (by decide +kernel)
    (by decide +kernel)
  have hfast := admitted_after_wait_iff (l := threeHundredASecond)
    (b := spentAtEpoch threeHundredASecond) (t := .epoch) (by decide +kernel) (by decide +kernel)
    (by decide +kernel) (by decide +kernel) (by decide +kernel)
  rw [← nextAtEpoch, htwo] at hslow
  rw [← nextAtEpoch, hthree] at hfast
  obtain ⟨-, -, -, hadmitted, -⟩ := hslow
  obtain ⟨-, -, -, -, hlater⟩ := hfast
  have htwoTokens : twoASecond.refillRate ≤ 2 := le_refl (2 : ℚ)
  refine ⟨by decide +kernel, by decide +kernel, htwo, (hadmitted htwoTokens).2, hthree,
    hlater ⟨3333334⟩ ?_ ?_⟩
  · decide +kernel
  · decide +kernel

/-- At three hundred tokens a second the wait is told too short: after it the take is denied again.
At four tokens a nanosecond it is told as none at all. -/
theorem denied_after_wait :
    let l := threeHundredASecond
    let r := (nextAtEpoch l).1.retryAfter
    let fast : BucketLimit ℚ := ⟨1, 4000000000⟩
    l.fault? = none ∧ ((full l .epoch).take l .epoch).1.allowed = true ∧
    (nextAtEpoch l).1.allowed = false ∧
      .zero < r ∧ r < .longest ∧
      ((nextAtEpoch l).2.take l (Moment.epoch.later r)).1.allowed = false ∧
      fast.fault? = none ∧ (nextAtEpoch fast).1 = .deny .zero := by
  decide +kernel

end Bucket

end GuardedWrites

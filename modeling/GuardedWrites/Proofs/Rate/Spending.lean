import GuardedWrites.Proofs.Rate.Waiting

/-!
# Takes from a bucket, one after another

A full bucket is taken from again and again, by a clock that may also step back. What is spent has
been in the bucket or has flowed in since the last refill, and the last refill never moves back. So
nothing flows in twice, and in every stretch of takes the admissions are paid for by one full bucket
and the rate. An admitted take may be short of a whole token by the tolerance, and that is all it
may be short of.

* `Bucket.after`, `Bucket.outcomes`, `Bucket.admissions` — what some takes make of a bucket, what is
  said about them, and how many of them are admitted;
* `Bucket.Within` — a bucket that holds no less than nothing and no more than its capacity;
* `Bucket.spent_le` — the books: what is spent and what is left is covered by what was there and
  what has flowed in;
* `Bucket.admits_burst_then_rate` — the first takes are admitted, and then the rate bounds them.
-/

namespace GuardedWrites

/-- The seconds from one moment to another, negative if the other one is earlier. -/
def Moment.secondsTo (a b : Moment) : ℚ := (b.nanos - a.nanos : Int) / nanosPerSecond

namespace Moment

theorem secondsTo_add (a b c : Moment) : a.secondsTo b + b.secondsTo c = a.secondsTo c := by
  unfold secondsTo
  push_cast
  ring

theorem secondsTo_le {a b a' b' : Moment} (ha : a' ≤ a) (hb : b ≤ b') :
    a.secondsTo b ≤ a'.secondsTo b' := by
  have ha : a'.nanos ≤ a.nanos := ha
  have hb : b.nanos ≤ b'.nanos := hb
  have hle : ((b.nanos - a.nanos : Int) : ℚ) ≤ (b'.nanos - a'.nanos : Int) := by
    exact_mod_cast show b.nanos - a.nanos ≤ b'.nanos - a'.nanos by omega
  exact div_le_div_of_nonneg_right hle nanosPerSecond_pos.le

theorem secondsTo_self (a : Moment) : a.secondsTo a = 0 := by
  simp [secondsTo]

theorem secondsTo_nonneg {a b : Moment} (h : a ≤ b) : 0 ≤ a.secondsTo b :=
  secondsTo_self a ▸ secondsTo_le (le_refl a) h

theorem latest_of_le {a b : Moment} (h : a ≤ b) : a.latest b = b := if_pos h

/-- A span is no longer than what the clock has gone on by. -/
theorem nanos_elapsed_le (a b : Moment) :
    ((a.elapsed b).nanos : Int) ≤ (a.latest b).nanos - a.nanos := by
  show ((min (b.nanos - a.nanos).toNat spanLimit : Nat) : Int) ≤ _
  have hleft : a.nanos ≤ (a.latest b).nanos := le_latest_left a b
  have hright : b.nanos ≤ (a.latest b).nanos := le_latest_right a b
  omega

/-- From one reading to a later one a span grows by no more than the clock has gone on. -/
theorem nanos_elapsed_le_add {a b c : Moment} (h : b ≤ c) :
    ((a.elapsed c).nanos : Int) ≤ (a.elapsed b).nanos + (c.nanos - b.nanos) := by
  have h : b.nanos ≤ c.nanos := h
  show ((min (c.nanos - a.nanos).toNat spanLimit : Nat) : Int) ≤
    (min (b.nanos - a.nanos).toNat spanLimit : Nat) + _
  omega

end Moment

namespace Bucket

section Takes

variable {ν : Type} [Amount ν]

/-- The bucket after some takes. -/
def after (l : BucketLimit ν) (b : Bucket ν) (ts : List Moment) : Bucket ν :=
  ts.foldl (fun b t => (b.take l t).2) b

/-- What is said about some takes, in their order. -/
def outcomes (l : BucketLimit ν) : Bucket ν → List Moment → List Outcome
  | _, [] => []
  | b, t :: ts => (b.take l t).1 :: outcomes l (b.take l t).2 ts

/-- How many of some takes are admitted. -/
def admissions (l : BucketLimit ν) (b : Bucket ν) (ts : List Moment) : Nat :=
  (outcomes l b ts).countP (·.allowed)

theorem after_append (l : BucketLimit ν) (b : Bucket ν) (ts us : List Moment) :
    after l b (ts ++ us) = after l (after l b ts) us :=
  List.foldl_append

theorem admissions_of_allowed {l : BucketLimit ν} {b : Bucket ν} {t : Moment}
    (h : (b.take l t).1.allowed = true) (ts : List Moment) :
    admissions l b (t :: ts) = admissions l (b.take l t).2 ts + 1 :=
  List.countP_cons_of_pos h

theorem admissions_of_denied {l : BucketLimit ν} {b : Bucket ν} {t : Moment}
    (h : (b.take l t).1.allowed = false) (ts : List Moment) :
    admissions l b (t :: ts) = admissions l (b.take l t).2 ts :=
  List.countP_cons_of_neg (by simp [h])

end Takes

variable {b : Bucket ℚ} {l : BucketLimit ℚ} {n m t now : Moment} {ts : List Moment}

/-! ### One take -/

theorem take_of_allowed (h : (b.take l now).1.allowed = true) :
    (b.take l now).2 = ⟨spend (b.refilled l now), b.lastRefill.latest now⟩ := by
  unfold take at h ⊢
  dsimp only at h ⊢
  split
  · rfl
  · rename_i hlack
    rw [if_neg hlack] at h
    cases h

theorem spend_eq_max (tokens : ℚ) : spend tokens = max (tokens - 1) 0 := by
  rw [spend_eq]
  split
  · rename_i h
    exact (max_eq_right h.le).symm
  · rename_i h
    exact (max_eq_left (not_lt.1 h)).symm

theorem refilled_le_inflow (b : Bucket ℚ) (l : BucketLimit ℚ) (now : Moment) :
    b.refilled l now ≤ b.tokens + inflow l (b.lastRefill.elapsed now).nanos := by
  rw [refilled_eq]
  exact min_le_left _ _

/-- An admitted take costs a token, or less by no more than the tolerance. -/
theorem cost_of_allowed (h : (b.take l now).1.allowed = true) :
    (b.take l now).2.tokens + (1 - Amount.tolerance) ≤ b.refilled l now := by
  have henough := (allowed_take_iff b l now).1 h
  rw [← tolerance_eq] at henough
  have htolerance : (0 : ℚ) ≤ Amount.tolerance := by
    rw [tolerance_eq]
    exact (one_div_pos.2 nanosPerSecond_pos).le
  rw [take_of_allowed h, spend_eq_max]
  rcases max_cases (b.refilled l now - 1) 0 with ⟨hmax, -⟩ | ⟨hmax, -⟩
  · rw [hmax]
    linarith
  · rw [hmax]
    linarith

theorem lastRefill_take (b : Bucket ℚ) (l : BucketLimit ℚ) (now : Moment) :
    (b.take l now).2.lastRefill = b.lastRefill ∨
      (b.take l now).2.lastRefill = b.lastRefill.latest now := by
  cases h : (b.take l now).1.allowed with
  | true => exact .inr (congrArg Bucket.lastRefill (take_of_allowed h))
  | false => exact .inl (congrArg (fun x => x.2.lastRefill) (take_of_denied h))

/-- The last refill never moves back. -/
theorem lastRefill_le_take (b : Bucket ℚ) (l : BucketLimit ℚ) (now : Moment) :
    b.lastRefill ≤ (b.take l now).2.lastRefill := by
  rcases lastRefill_take b l now with h | h
  · exact h ▸ Moment.le_refl _
  · exact h ▸ Moment.le_latest_left _ _

/-- A bucket holds no less than nothing and no more than its capacity. -/
structure Within (l : BucketLimit ℚ) (b : Bucket ℚ) : Prop where
  nonneg : 0 ≤ b.tokens
  le_capacity : b.tokens ≤ l.capacity

theorem within_full (l : BucketLimit ℚ) (start : Moment) : Within l (full l start) := by
  have htokens : (full l start).tokens = l.capacity := ofNat_eq_cast l.capacity
  exact ⟨htokens ▸ Nat.cast_nonneg _, htokens.le⟩

theorem Within.take (h : Within l b) (hl : l.fault? = none) (now : Moment) :
    Within l (b.take l now).2 := by
  cases ha : (b.take l now).1.allowed with
  | false => exact (take_of_denied ha) ▸ h
  | true =>
    rw [take_of_allowed ha]
    constructor
    · show 0 ≤ spend _
      rw [spend_eq_max]
      exact le_max_right _ _
    · show spend _ ≤ (l.capacity : ℚ)
      have hcapacity := one_le_capacity hl
      have hrefilled := b.refilled_le l now
      rw [spend_eq_max]
      exact max_le (by linarith) (by linarith)

theorem inflow_le_inflow (hl : l.fault? = none) {i j : Nat} (h : i ≤ j) :
    inflow l i ≤ inflow l j := by
  have hcast : (i : ℚ) ≤ j := Nat.cast_le.2 h
  exact mul_le_mul_of_nonneg_right (div_le_div_of_nonneg_right hcast nanosPerSecond_pos.le)
    (rate_pos hl).le

/-- What is in the bucket stays there until it is spent. -/
theorem Within.tokens_le_refilled (h : Within l b) (hl : l.fault? = none) (now : Moment) :
    b.tokens ≤ b.refilled l now := by
  have hinflow : 0 ≤ inflow l (b.lastRefill.elapsed now).nanos :=
    mul_nonneg (div_nonneg (Nat.cast_nonneg _) nanosPerSecond_pos.le) (rate_pos hl).le
  rw [refilled_eq]
  exact le_min (by linarith) h.le_capacity

/-- At a later reading there is no less in the bucket. -/
theorem refilled_mono (hl : l.fault? = none) (h : t ≤ now) : b.refilled l t ≤ b.refilled l now := by
  rw [refilled_eq, refilled_eq]
  have hinflow := inflow_le_inflow hl (Moment.elapsed_le_elapsed (Moment.le_refl b.lastRefill) h)
  exact min_le_min_right _ (by linarith)

/-! ### What flows in -/

/-- What flows in until a take is what the rate brings while the last refill moves on. -/
theorem inflow_le_latest (hl : l.fault? = none) (b : Bucket ℚ) (t : Moment) :
    inflow l (b.lastRefill.elapsed t).nanos ≤
      l.refillRate * b.lastRefill.secondsTo (b.lastRefill.latest t) := by
  have hspan : ((b.lastRefill.elapsed t).nanos : ℚ) ≤
      ((b.lastRefill.latest t).nanos - b.lastRefill.nanos : Int) := by
    exact_mod_cast Moment.nanos_elapsed_le b.lastRefill t
  rw [mul_comm]
  exact mul_le_mul_of_nonneg_right (div_le_div_of_nonneg_right hspan nanosPerSecond_pos.le)
    (rate_pos hl).le

/-- Between two readings no more flows in than the rate brings. -/
theorem inflow_le_add (hl : l.fault? = none) (b : Bucket ℚ) (h : n ≤ t) :
    inflow l (b.lastRefill.elapsed t).nanos ≤
      inflow l (b.lastRefill.elapsed n).nanos + l.refillRate * n.secondsTo t := by
  have hspan : ((b.lastRefill.elapsed t).nanos : ℚ) ≤ (b.lastRefill.elapsed n).nanos +
      (t.nanos - n.nanos : Int) := by
    exact_mod_cast Moment.nanos_elapsed_le_add h
  have hscaled := mul_le_mul_of_nonneg_right
      (div_le_div_of_nonneg_right hspan nanosPerSecond_pos.le) (rate_pos hl).le
  rw [add_div, add_mul] at hscaled
  rw [mul_comm l.refillRate]
  exact hscaled

/-! ### Many takes -/

theorem Within.after (h : Within l b) (hl : l.fault? = none) (ts : List Moment) :
    Within l (after l b ts) := by
  induction ts generalizing b with
  | nil => exact h
  | cons t ts ih => exact ih (h.take hl t)

theorem lastRefill_le_after (b : Bucket ℚ) (l : BucketLimit ℚ) (ts : List Moment) :
    b.lastRefill ≤ (Bucket.after l b ts).lastRefill := by
  induction ts generalizing b with
  | nil => exact Moment.le_refl _
  | cons t ts ih => exact Moment.le_trans (lastRefill_le_take b l t) (ih _)

/-- The last refill is no later than the takes, unless it was so before. -/
theorem lastRefill_after_le (hb : b.lastRefill ≤ m) (hm : ∀ t ∈ ts, t ≤ m) :
    (Bucket.after l b ts).lastRefill ≤ m := by
  induction ts generalizing b with
  | nil => exact hb
  | cons t ts ih =>
    refine ih ?_ fun t' ht' => hm t' (.tail _ ht')
    rcases lastRefill_take b l t with h | h
    · exact h ▸ hb
    · rw [h]
      unfold Moment.latest
      split
      · exact hm t (.head _)
      · exact hb

/-- As many takes as there are tokens are admitted, however fast they come. -/
theorem Within.admits_burst (h : Within l b) (hl : l.fault? = none) (ts : List Moment) {k : Nat}
    (hk : (k : ℚ) ≤ b.tokens) : ∀ o ∈ (outcomes l b ts).take k, o.allowed = true := by
  induction ts generalizing b k with
  | nil =>
    intro o ho
    cases k <;> cases ho
  | cons t ts ih =>
    cases k with
    | zero => exact fun o ho => absurd ho List.not_mem_nil
    | succ k =>
      push_cast at hk
      have hkept := h.tokens_le_refilled hl t
      have hpos : (0 : ℚ) < 1 / nanosPerSecond := one_div_pos.2 nanosPerSecond_pos
      have hcount : (0 : ℚ) ≤ k := Nat.cast_nonneg k
      have hallowed : (b.take l t).1.allowed = true := by
        rw [allowed_take_iff]
        linarith
      have hleft : (k : ℚ) ≤ (b.take l t).2.tokens := by
        rw [take_of_allowed hallowed]
        show (k : ℚ) ≤ spend _
        rw [spend_eq_max]
        exact le_max_of_le_left (by linarith)
      intro o ho
      rcases List.mem_cons.1 ho with rfl | ho
      · exact hallowed
      · exact ih (h.take hl t) hleft o ho

/-- **The books.** What some takes have spent and what they leave is covered by what was in the
bucket and by what has flowed in while its last refill moved on. -/
theorem spent_le (hl : l.fault? = none) (b : Bucket ℚ) (ts : List Moment) :
    admissions l b ts * (1 - Amount.tolerance) + (Bucket.after l b ts).tokens ≤
      b.tokens + l.refillRate * b.lastRefill.secondsTo (Bucket.after l b ts).lastRefill := by
  induction ts generalizing b with
  | nil =>
    show ((0 : Nat) : ℚ) * _ + b.tokens ≤ b.tokens + l.refillRate *
      b.lastRefill.secondsTo b.lastRefill
    simp [Moment.secondsTo_self]
  | cons t ts ih =>
    have hrest := ih (b.take l t).2
    show _ + (Bucket.after l (b.take l t).2 ts).tokens ≤
      _ + _ * b.lastRefill.secondsTo (Bucket.after l (b.take l t).2 ts).lastRefill
    cases ha : (b.take l t).1.allowed with
    | false =>
      rw [admissions_of_denied ha]
      rw [take_of_denied ha] at hrest ⊢
      exact hrest
    | true =>
      have hcost := cost_of_allowed ha
      have hthere := b.refilled_le_inflow l t
      have hinflow := inflow_le_latest hl b t
      have hmoved : (b.take l t).2.lastRefill = b.lastRefill.latest t :=
        congrArg Bucket.lastRefill (take_of_allowed ha)
      rw [admissions_of_allowed ha, ← Moment.secondsTo_add b.lastRefill (b.take l t).2.lastRefill,
        hmoved, mul_add]
      rw [hmoved] at hrest
      push_cast
      linarith

/-! ### A stretch of takes -/

/-- After a take that is denied nothing is admitted at the same reading or before it. So the takes
that follow it are paid for by less than a token and by what flows in after that reading. -/
theorem Within.admissions_le_of_denied (h : Within l b) (hl : l.fault? = none)
    (hn : b.lastRefill ≤ n) (hd : (b.take l n).1.allowed = false) (hnm : n ≤ m)
    (hm : ∀ t ∈ ts, t ≤ m) :
    admissions l b ts * (1 - Amount.tolerance) ≤ l.capacity + l.refillRate * n.secondsTo m := by
  have hrate := rate_pos hl
  have hcapacity := one_le_capacity hl
  induction ts with
  | nil =>
    have hinflow := mul_nonneg hrate.le (Moment.secondsTo_nonneg hnm)
    show ((0 : Nat) : ℚ) * _ ≤ _
    push_cast
    linarith
  | cons t ts ih =>
    have hrest : ∀ t' ∈ ts, t' ≤ m := fun t' ht' => hm t' (.tail _ ht')
    cases ha : (b.take l t).1.allowed with
    | false =>
      rw [admissions_of_denied ha, take_of_denied ha]
      exact ih hrest
    | true =>
      have hlater : n ≤ t := by
        refine (Moment.le_total n t).resolve_right fun hle => ?_
        have henough := (allowed_take_iff b l t).1 ha
        have hlack : (b.take l n).1.allowed = true := by
          rw [allowed_take_iff]
          linarith [refilled_mono (b := b) hl hle]
        rw [hd] at hlack
        cases hlack
      -- the last refill moves to this reading, and what has flowed in until then was less than a
      -- token at `n`
      have hmoved : (b.take l t).2.lastRefill = t :=
        (congrArg Bucket.lastRefill (take_of_allowed ha)).trans
          (Moment.latest_of_le (Moment.le_trans hn hlater))
      have hlack : b.tokens + inflow l (b.lastRefill.elapsed n).nanos < 1 := by
        have hlt := lt_one_of_denied hd
        rw [refilled_eq, min_lt_iff] at hlt
        exact hlt.resolve_right (by linarith)
      have hcost := cost_of_allowed ha
      have hthere := b.refilled_le_inflow l t
      have hinflow := inflow_le_add hl b hlater
      have hspent := spent_le hl (b.take l t).2 ts
      have hleft := ((h.take hl t).after hl ts).nonneg
      have hend : (Bucket.after l (b.take l t).2 ts).lastRefill ≤ m :=
        lastRefill_after_le (hmoved.trans_le (hm t (.head _))) hrest
      have hpassed := mul_le_mul_of_nonneg_left
          (Moment.secondsTo_le (Moment.le_refl t) hend) hrate.le
      have hsum := Moment.secondsTo_add n t m
      rw [hmoved] at hspent
      rw [admissions_of_allowed ha, ← hsum, mul_add]
      push_cast
      linarith

/-- A stretch of takes from any bucket is paid for by one full bucket and by what flows in from its
first reading to the last one. -/
theorem Within.admissions_le (h : Within l b) (hl : l.fault? = none) (hm : ∀ t ∈ n :: ts, t ≤ m) :
    admissions l b (n :: ts) * (1 - Amount.tolerance) ≤ l.capacity + l.refillRate *
      n.secondsTo m := by
  have hrate := rate_pos hl
  have hnm : n ≤ m := hm n (.head _)
  have hrest : ∀ t ∈ ts, t ≤ m := fun t ht => hm t (.tail _ ht)
  rcases Moment.le_total n b.lastRefill with hn | hn
  · -- the readings up to the last refill bring nothing, so what flows in does so after `n`
    have hspent := spent_le hl b (n :: ts)
    have hleft := (h.after hl (n :: ts)).nonneg
    have hfull := h.le_capacity
    have hpassed : b.lastRefill.secondsTo (Bucket.after l b (n :: ts)).lastRefill ≤
        n.secondsTo m := by
      rcases Moment.le_total b.lastRefill m with hb | hb
      · exact Moment.secondsTo_le hn (lastRefill_after_le hb hm)
      · have hend := lastRefill_after_le (l := l) (Moment.le_refl b.lastRefill) fun t ht =>
          Moment.le_trans (hm t ht) hb
        have hstill := Moment.secondsTo_le (Moment.le_refl b.lastRefill) hend
        rw [Moment.secondsTo_self] at hstill
        exact hstill.trans (Moment.secondsTo_nonneg hnm)
    have hinflow := mul_le_mul_of_nonneg_left hpassed hrate.le
    linarith
  · cases ha : (b.take l n).1.allowed with
    | false =>
      rw [admissions_of_denied ha, take_of_denied ha]
      exact h.admissions_le_of_denied hl hn ha hnm hrest
    | true =>
      have hmoved : (b.take l n).2.lastRefill = n :=
        (congrArg Bucket.lastRefill (take_of_allowed ha)).trans (Moment.latest_of_le hn)
      have hcost := cost_of_allowed ha
      have hfull := b.refilled_le l n
      have hspent := spent_le hl (b.take l n).2 ts
      have hleft := ((h.take hl n).after hl ts).nonneg
      have hend : (Bucket.after l (b.take l n).2 ts).lastRefill ≤ m :=
        lastRefill_after_le (hmoved.symm ▸ hnm) hrest
      have hinflow := mul_le_mul_of_nonneg_left
          (Moment.secondsTo_le (Moment.le_refl n) hend) hrate.le
      rw [hmoved] at hspent
      rw [admissions_of_allowed ha]
      push_cast
      linarith

/-- **A burst, and then the rate.** A full bucket is taken from at any readings, also earlier ones.
As many takes as its capacity are admitted at once. It never holds less than nothing or more than
its capacity, and its last refill never moves back. The admissions of any stretch of takes, each
counted as a token less the tolerance, are no more than the capacity and what the rate brings from
the first reading of the stretch to its largest one. -/
theorem admits_burst_then_rate (l : BucketLimit ℚ) (hl : l.fault? = none) (start : Moment)
    (ts : List Moment) :
    (∀ o ∈ (outcomes l (full l start) ts).take l.capacity, o.allowed = true) ∧
      (∀ before rest, ts = before ++ rest →
        let b := after l (full l start) before
        0 ≤ b.tokens ∧ b.tokens ≤ l.capacity ∧
        b.lastRefill ≤ (after l (full l start) ts).lastRefill) ∧
      ∀ before n stretch rest m, ts = before ++ (n :: stretch ++ rest) →
        (∀ t ∈ n :: stretch, t ≤ m) →
        admissions l (after l (full l start) before) (n :: stretch) * (1 - Amount.tolerance) ≤
          l.capacity + l.refillRate * n.secondsTo m := by
  have hfull := within_full l start
  refine ⟨hfull.admits_burst hl ts (ofNat_eq_cast l.capacity).ge, ?_, ?_⟩
  · rintro before rest rfl
    have hwithin := hfull.after hl before
    refine ⟨hwithin.nonneg, hwithin.le_capacity, ?_⟩
    rw [after_append]
    exact lastRefill_le_after _ l rest
  · intro before n stretch rest m _ hm
    exact (hfull.after hl before).admissions_le hl hm

/-- Two tokens at once, and one a second. -/
def twoAtOnce : BucketLimit ℚ := ⟨2, 1⟩

/-- Two takes after ten seconds, one at a reading six seconds earlier, and one at each of the two
seconds that follow. -/
def steppingBack : List Moment :=
  [.ofMillis 10000, .ofMillis 10000, .ofMillis 4000, .ofMillis 11000, .ofMillis 12000]

/-- The take at the earlier reading is denied. From the second take on, between the tenth second and
the twelfth, three are admitted, and four would be too many. -/
theorem admits_burst_then_rate_steppingBack :
    let b := full twoAtOnce (.ofMillis 10000)
    let b' := after twoAtOnce b [.ofMillis 10000]
    twoAtOnce.fault? = none ∧
      (outcomes twoAtOnce b steppingBack).map (·.allowed) = [true, true, false, true, true] ∧
      (∀ o ∈ (outcomes twoAtOnce b steppingBack).take 2, o.allowed = true) ∧
      admissions twoAtOnce b' steppingBack.tail = 3 ∧
      admissions twoAtOnce b' steppingBack.tail * (1 - Amount.tolerance) ≤
        (twoAtOnce.capacity : ℚ) + twoAtOnce.refillRate *
          (Moment.ofMillis 10000).secondsTo (.ofMillis 12000) := by
  intro b b'
  have hl : twoAtOnce.fault? = none := by decide +kernel
  obtain ⟨hburst, -, hrate⟩ := admits_burst_then_rate twoAtOnce hl (.ofMillis 10000) steppingBack
  have hstretch := hrate [.ofMillis 10000] (.ofMillis 10000)
    [.ofMillis 4000, .ofMillis 11000, .ofMillis 12000] [] (.ofMillis 12000) rfl (by decide)
  exact ⟨hl, by decide +kernel, hburst, by decide +kernel, hstretch⟩

end Bucket

end GuardedWrites

import GuardedWrites.Transaction.Backoff

/-!
# How long a run waits between attempts

The wait after a failed attempt is the first one, doubled as often as attempts have failed since,
under a cap. The number of doublings has a limit of its own. Where the cap is reached by then the
limit makes no difference, and where it is not the wait stays where it is for good, short of the
cap.

* `BackoffPolicy.doubled` — the first wait after some doublings;
* `BackoffPolicy.doubled_double` — between any two numbers of doublings there is at least one
  doubling;
* `BackoffPolicy.doubles_until_cap_iff` — the wait, and when it is the one without a limit.
-/

namespace GuardedWrites

theorem Span.nanos_shorter (a b : Span) : (a.shorter b).nanos = min a.nanos b.nanos := by
  unfold shorter
  by_cases h : a ≤ b
  · have hnanos : a.nanos ≤ b.nanos := h
    rw [if_pos h, Nat.min_eq_left hnanos]
  · have hnanos : b.nanos ≤ a.nanos := Nat.le_of_not_le h
    rw [if_neg h, Nat.min_eq_right hnanos]

/-- A multiple that is cut to the longest span, and then to another one, is cut to the other one. -/
theorem Span.nanos_scale_shorter (a b : Span) (k : Nat) :
    ((a.scale k).shorter b).nanos = min (a.nanos * k) b.nanos := by
  rw [nanos_shorter, scale, nanos_ofNanos, Nat.min_assoc, Nat.min_eq_right b.le_limit]

namespace BackoffPolicy

variable (p : BackoffPolicy)

/-- The nanoseconds of the first wait after `n` doublings, under no cap. -/
def doubled (n : Nat) : Nat := p.baseDelay.nanos * Nat.pow 2 n

variable {p}

theorem doubled_eq_zero {n : Nat} (h : p.baseDelay = .zero) : p.doubled n = 0 := by
  rw [doubled, h]
  exact Nat.zero_mul _

theorem baseDelay_of_doubled {n : Nat} (h : p.doubled n = 0) : p.baseDelay = .zero := by
  rcases Nat.mul_eq_zero.1 h with hbase | hpow
  · exact Span.ext_nanos hbase
  · exact absurd hpow (Nat.ne_of_gt (Nat.pow_pos Nat.two_pos))

/-- More doublings make at least twice as much. -/
theorem doubled_double {k n : Nat} (h : k < n) : 2 * p.doubled k ≤ p.doubled n := by
  have hpow : Nat.pow 2 (k + 1) ≤ Nat.pow 2 n := Nat.pow_le_pow_right Nat.two_pos h
  calc 2 * p.doubled k = p.baseDelay.nanos * Nat.pow 2 (k + 1) := by
        show 2 * (p.baseDelay.nanos * Nat.pow 2 k) = p.baseDelay.nanos * (Nat.pow 2 k * 2)
        rw [Nat.mul_comm 2, Nat.mul_assoc]
    _ ≤ p.baseDelay.nanos * Nat.pow 2 n := Nat.mul_le_mul_left _ hpow

/-- Two numbers of doublings come to the same under a cap exactly if the smaller one has reached it,
or there is nothing to double. -/
theorem capped_eq_iff {k n cap : Nat} (h : k < n) :
    min (p.doubled k) cap = min (p.doubled n) cap ↔ p.baseDelay = .zero ∨ cap ≤ p.doubled k := by
  have hdouble := p.doubled_double h
  constructor
  · intro hsame
    by_cases hcap : cap ≤ p.doubled k
    · exact .inr hcap
    · exact .inl (baseDelay_of_doubled (n := k) (by omega))
  · rintro (hzero | hcap)
    · rw [doubled_eq_zero hzero, doubled_eq_zero hzero]
    · omega

variable (p)

/-- **Waits double until the cap, or as often as the limit allows.** The wait after failed attempt
number `n + 1` is the first one, doubled `n` times but no more often than the limit, under the cap;
neither the product nor the power is cut anywhere else. It is the wait that the doublings alone
would come to under the cap exactly if the limit is not passed, or the first wait is zero, or the
cap is reached by then. -/
theorem doubles_until_cap_iff (n : Nat) :
    (p.baseFor (n + 1)).nanos = min (p.doubled (min n exponentLimit)) p.maxDelay.nanos ∧
    ((p.baseFor (n + 1)).nanos = min (p.doubled n) p.maxDelay.nanos ↔
      n ≤ exponentLimit ∨ p.baseDelay = .zero ∨ p.maxDelay.nanos ≤ p.doubled exponentLimit) := by
  have hwait : (p.baseFor (n + 1)).nanos = min (p.doubled (min n exponentLimit)) p.maxDelay.nanos :=
    Span.nanos_scale_shorter _ _ _
  refine ⟨hwait, ?_⟩
  rw [hwait]
  by_cases hn : n ≤ exponentLimit
  · rw [Nat.min_eq_left hn]
    exact iff_of_true rfl (.inl hn)
  · rw [Nat.min_eq_right (Nat.le_of_not_le hn), capped_eq_iff (Nat.lt_of_not_le hn)]
    exact ⟨.inr, fun h => h.resolve_left hn⟩

/-- The cap is not all that limits the doublings: from one nanosecond on they stop at about two
seconds, however long waits may be. -/
theorem stops_doubling_below_cap :
    ¬ ∀ (p : BackoffPolicy) (n : Nat), (p.baseFor (n + 1)).nanos =
      min (p.doubled n) p.maxDelay.nanos := by
  intro hall
  have hfour := hall ⟨.ofNanos 1, .ofSecs 10, 0⟩ 32
  exact absurd hfour (by decide)

end BackoffPolicy

end GuardedWrites

import GuardedWrites.Proofs.Time.Elapsed
import GuardedWrites.Rate.Breaker

/-!
# When the breaker trips

A breaker keeps its health, a count and a time, and changes them one at a time. Here all three are
read off the log of what has happened to it, at whatever readings of the clock: it has tripped if
the failures since the last success or reset reach the threshold, and out of that state it grants
one trial at a time.

* `Breaker.allowRemote_cases` — the one inversion of the breaker's answer;
* `Breaker.after` — the breaker after a log of events;
* `Breaker.failuresInARow`, `Breaker.lastFailure?` — what the log tells of failures;
* `Breaker.Trial`, `Breaker.Pending` — a permission given while not healthy, and one of which
  nothing was heard yet;
* `Breaker.follows_log` — the breaker is where the log says it is.
-/

namespace GuardedWrites

namespace Breaker

variable {config : HealthConfig} {log earlier later : List (Event × Moment)} {now now' : Moment}
variable {e : Event}

/-! ### One step -/

/-- The answers of the breaker: a healthy one lets everybody through, a degraded one whose time has
come lets one through as a trial, and any other refuses. -/
theorem allowRemote_cases (b : Breaker) (config : HealthConfig) (now : Moment) :
    b.health = .healthy ∧ b.allowRemote config now = (true, b) ∨
      (∃ wait, b.health = .degraded ∧ config.reprobeAfter = some wait ∧
        wait ≤ b.lastFailure.elapsed now ∧
        b.allowRemote config now = (true, { b with health := .probing })) ∨
      b.health ≠ .healthy ∧
        (b.health = .degraded → ∀ wait, config.reprobeAfter = some wait →
          b.lastFailure.elapsed now < wait) ∧
        b.allowRemote config now = (false, b) := by
  unfold Breaker.allowRemote
  cases b.health with
  | healthy => exact .inl ⟨rfl, rfl⟩
  | probing => exact .inr (.inr ⟨nofun, nofun, rfl⟩)
  | degraded =>
    right
    cases config.reprobeAfter with
    | none => exact .inr ⟨nofun, fun _ => nofun, rfl⟩
    | some wait =>
      by_cases hlt : b.lastFailure.elapsed now < wait
      · refine .inr ⟨nofun, fun _ wait' h => ?_, if_pos hlt⟩
        cases h
        exact hlt
      · exact .inl ⟨wait, rfl, rfl, Span.not_lt.1 hlt, if_neg hlt⟩

theorem recordFailure_health_ne_probing (b : Breaker) (config : HealthConfig) (now : Moment) :
    (b.recordFailure config now).health ≠ .probing := by
  cases hb : b.health with
  | healthy =>
    by_cases hlt : config.failureThreshold ≤ b.failures +
      1 <;> simp [Breaker.recordFailure, hb, hlt]
  | degraded => simp [Breaker.recordFailure, hb]
  | probing => simp [Breaker.recordFailure, hb]

/-- A failure leaves only a healthy breaker healthy, and that only below the threshold. -/
theorem healthy_recordFailure_iff (b : Breaker) (config : HealthConfig) (now : Moment) :
    (b.recordFailure config now).health = .healthy ↔ b.health = .healthy ∧
    b.failures + 1 < config.failureThreshold := by
  cases hb : b.health with
  | healthy =>
    by_cases hlt : config.failureThreshold ≤ b.failures + 1
    · simp only [Breaker.recordFailure, hb, hlt, if_true, true_and]
      exact ⟨nofun, fun h => absurd hlt (Nat.not_le.2 h)⟩
    · simp only [Breaker.recordFailure, hb, hlt, if_false, true_and]
      exact ⟨fun _ => Nat.not_le.1 hlt, fun _ => trivial⟩
  | degraded => simp [Breaker.recordFailure, hb]
  | probing => simp [Breaker.recordFailure, hb]

/-- Asking changes neither the count nor the time, and heals nothing. -/
theorem allowRemote_keeps (b : Breaker) (config : HealthConfig) (now : Moment) :
    (b.allowRemote config now).2.failures = b.failures ∧
      (b.allowRemote config now).2.lastFailureNanos = b.lastFailureNanos ∧
      ((b.allowRemote config now).2.health = .healthy ↔ b.health = .healthy) := by
  rcases allowRemote_cases b config now with ⟨-, hx⟩ | ⟨wait, hb, -, -, hx⟩ | ⟨-, -, hx⟩
  · rw [hx]
    exact ⟨rfl, rfl, Iff.rfl⟩
  · rw [hx, hb]
    exact ⟨rfl, rfl, nofun, nofun⟩
  · rw [hx]
    exact ⟨rfl, rfl, Iff.rfl⟩

/-- The time of a failure is kept as it is, if it is not before the epoch and fits in 64 bits of
nanoseconds. -/
theorem lastFailure_recordFailure (b : Breaker) (config : HealthConfig)
    (hepoch : Moment.epoch ≤ now) (hlimit : now.nanos ≤ nanosLimit) :
    (b.recordFailure config now).lastFailure = now := by
  have hepoch : 0 ≤ now.nanos := hepoch
  have hspan : nanosLimit ≤ spanLimit := by decide
  have hnanos : ((min (min (now.nanos - 0).toNat spanLimit) nanosLimit : Nat) : Int) =
      now.nanos := by
    omega
  exact congrArg Moment.mk hnanos

/-! ### The log of a breaker -/

/-- An event that makes up for all failures before it. -/
def Event.heals : Event → Bool
  | .success | .reset => true
  | .allow | .failure => false

/-- The breaker after some events, each at a reading of the clock. The latest stands first. -/
def after (config : HealthConfig) : List (Event × Moment) → Breaker
  | [] => initial
  | e :: earlier => (step config (after config earlier) e.1 e.2).2

/-- The failures since the last success or reset. -/
def failuresInARow (log : List (Event × Moment)) : Nat :=
  (log.takeWhile fun e => !e.1.heals).countP fun e => e.1 = .failure

/-- The reading at the latest failure. -/
def lastFailure? (log : List (Event × Moment)) : Option Moment :=
  (log.find? fun e => e.1 = .failure).map Prod.snd

/-- After the events of a log the breaker is not healthy, and yet it lets somebody through at
`now`. -/
def Trial (config : HealthConfig) (log : List (Event × Moment)) (now : Moment) : Prop :=
  (after config log).health ≠ .healthy ∧ (step config (after config log) .allow now).1 = some true

/-- A trial was granted, and since then there were only questions. -/
def Pending (config : HealthConfig) (log : List (Event × Moment)) : Prop :=
  ∃ later now earlier, log = later ++ (.allow, now) :: earlier ∧ Trial config earlier now ∧
    ∀ e ∈ later, e.1 = .allow

theorem failuresInARow_of_heals (h : e.heals = true) : failuresInARow ((e, now) :: log) = 0 := by
  simp [failuresInARow, h]

theorem failuresInARow_failure :
    failuresInARow ((.failure, now) :: log) = failuresInARow log + 1 := by
  simp [failuresInARow, Event.heals]

theorem failuresInARow_allow : failuresInARow ((.allow, now) :: log) = failuresInARow log := by
  simp [failuresInARow, Event.heals]

theorem lastFailure?_of_ne (h : e ≠ .failure) :
    lastFailure? ((e, now) :: log) = lastFailure? log := by
  simp [lastFailure?, h]

/-- Where failures count there was one. -/
theorem exists_lastFailure (h : 0 < failuresInARow log) : ∃ last, lastFailure? log = some last := by
  obtain ⟨x, hx, hfailure⟩ := List.countP_pos_iff.1 h
  have hmem : x ∈ log := (List.takeWhile_sublist _).subset hx
  have hsome : (log.find? fun e => e.1 = .failure).isSome = true :=
      List.find?_isSome.2 ⟨x, hmem, hfailure⟩
  obtain ⟨y, hy⟩ := Option.isSome_iff_exists.1 hsome
  exact ⟨y.2, congrArg (Option.map Prod.snd) hy⟩

/-! ### The breaker is where the log says it is -/

/-- The count is that of the log. -/
theorem failures_after (config : HealthConfig) (log : List (Event × Moment)) :
    (after config log).failures = failuresInARow log := by
  induction log with
  | nil => rfl
  | cons x earlier ih =>
    obtain ⟨e, now⟩ := x
    cases e with
    | allow =>
      rw [failuresInARow_allow, ← ih]
      exact (allowRemote_keeps (after config earlier) config now).1
    | success => rw [failuresInARow_of_heals rfl]; rfl
    | failure => rw [failuresInARow_failure, ← ih]; rfl
    | reset => rw [failuresInARow_of_heals rfl]; rfl

/-- The breaker is healthy as long as the failures in a row do not reach the threshold. -/
theorem healthy_after_iff (hthreshold : 1 ≤ config.failureThreshold) (log : List (Event × Moment)) :
    (after config log).health = .healthy ↔ failuresInARow log < config.failureThreshold := by
  induction log with
  | nil => exact ⟨fun _ => hthreshold, fun _ => rfl⟩
  | cons x earlier ih =>
    obtain ⟨e, now⟩ := x
    cases e with
    | allow =>
      rw [failuresInARow_allow, ← ih]
      exact (allowRemote_keeps (after config earlier) config now).2.2
    | success =>
      rw [failuresInARow_of_heals rfl]
      exact ⟨fun _ => hthreshold, fun _ => rfl⟩
    | failure =>
      rw [failuresInARow_failure]
      refine (healthy_recordFailure_iff (after config earlier) config now).trans ?_
      rw [ih, failures_after]
      omega
    | reset =>
      rw [failuresInARow_of_heals rfl]
      exact ⟨fun _ => hthreshold, fun _ => rfl⟩

/-- The time that is kept is that of the latest failure, also where the breaker has recovered
since. -/
theorem lastFailure_after
    (hreadings : ∀ now, (.failure, now) ∈ log → Moment.epoch ≤ now ∧ now.nanos ≤ nanosLimit)
    {last : Moment} (h : lastFailure? log = some last) :
    (after config log).lastFailure = last := by
  induction log with
  | nil => cases h
  | cons x earlier ih =>
    obtain ⟨e, now⟩ := x
    have ih := ih fun t ht => hreadings t (.tail _ ht)
    cases e with
    | allow =>
      rw [lastFailure?_of_ne (e := .allow) nofun] at h
      have hnanos := (allowRemote_keeps (after config earlier) config now).2.1
      exact (congrArg (fun n : Nat => Moment.mk n) hnanos).trans (ih h)
    | success =>
      rw [lastFailure?_of_ne (e := .success) nofun] at h
      exact ih h
    | failure =>
      obtain rfl : now = last := by simpa [lastFailure?] using h
      obtain ⟨hepoch, hlimit⟩ := hreadings now (.head _)
      exact lastFailure_recordFailure (after config earlier) config hepoch hlimit
    | reset =>
      rw [lastFailure?_of_ne (e := .reset) nofun] at h
      exact ih h

/-! ### Trials -/

/-- A trial is granted by a degraded breaker whose time has come. -/
theorem trial_iff : Trial config log now ↔ (after config log).health = .degraded ∧
    ∃ wait, config.reprobeAfter = some wait ∧
      wait ≤ (after config log).lastFailure.elapsed now := by
  show _ ≠ Health.healthy ∧ some ((after config log).allowRemote config now).1 = some true ↔ _
  rcases allowRemote_cases (after config log) config now with
    ⟨hb, hx⟩ | ⟨wait, hb, hwait, hle, hx⟩ | ⟨hb, hearly, hx⟩
  · rw [hx, hb]
    exact ⟨fun h => absurd rfl h.1, fun h => nomatch h.1⟩
  · rw [hx, hb]
    exact ⟨fun _ => ⟨rfl, wait, hwait, hle⟩, fun _ => ⟨nofun, rfl⟩⟩
  · rw [hx]
    refine ⟨fun h => absurd h.2 nofun, fun h => ?_⟩
    obtain ⟨hdegraded, wait, hwait, hle⟩ := h
    exact absurd hle (Span.not_le.2 (hearly hdegraded wait hwait))

/-- A question makes a trial pending if it is granted as one, and leaves one pending that was. -/
theorem pending_allow_iff :
    Pending config ((.allow, now) :: log) ↔ Trial config log now ∨ Pending config log := by
  constructor
  · rintro ⟨later, now', earlier, hlog, htrial, hquiet⟩
    cases later with
    | nil =>
      cases hlog
      exact .inl htrial
    | cons x later =>
      cases hlog
      exact .inr ⟨later, now', earlier, rfl, htrial, fun e he => hquiet e (.tail _ he)⟩
  · rintro (htrial | ⟨later, now', earlier, rfl, htrial, hquiet⟩)
    · exact ⟨[], now, log, rfl, htrial, nofun⟩
    · refine ⟨(.allow, now) :: later, now', earlier, rfl, htrial, fun e he => ?_⟩
      rcases List.mem_cons.1 he with rfl | he
      · rfl
      · exact hquiet e he

/-- Whatever else is heard settles the trial. -/
theorem not_pending_of_ne (h : e ≠ .allow) : ¬ Pending config ((e, now) :: log) := by
  rintro ⟨later, now', earlier, hlog, -, hquiet⟩
  cases later with
  | nil =>
    cases hlog
    exact h rfl
  | cons x later =>
    cases hlog
    exact h (hquiet _ (.head _))

/-- The breaker waits as long as a trial is pending. -/
theorem probing_after_iff (config : HealthConfig) (log : List (Event × Moment)) :
    (after config log).health = .probing ↔ Pending config log := by
  induction log with
  | nil =>
    refine ⟨nofun, ?_⟩
    rintro ⟨later, now, earlier, hlog, -⟩
    cases later <;> cases hlog
  | cons x earlier ih =>
    obtain ⟨e, now⟩ := x
    cases e with
    | allow =>
      rw [pending_allow_iff, ← ih, trial_iff]
      show ((after config earlier).allowRemote config now).2.health = .probing ↔ _
      rcases allowRemote_cases (after config earlier) config now with
        ⟨hb, hx⟩ | ⟨wait, hb, hwait, hle, hx⟩ | ⟨-, hearly, hx⟩
      · rw [hx, hb]
        exact ⟨nofun, fun h => h.elim (fun h => nomatch h.1) nofun⟩
      · rw [hx]
        exact ⟨fun _ => .inl ⟨hb, wait, hwait, hle⟩, fun _ => rfl⟩
      · rw [hx]
        refine ⟨.inr, fun h => h.resolve_left fun h => ?_⟩
        obtain ⟨hdegraded, wait, hwait, hle⟩ := h
        exact Span.not_le.2 (hearly hdegraded wait hwait) hle
    | success => exact ⟨nofun, fun h => absurd h (not_pending_of_ne nofun)⟩
    | failure =>
      exact ⟨fun h => absurd h (recordFailure_health_ne_probing _ config now),
        fun h => absurd h (not_pending_of_ne nofun)⟩
    | reset => exact ⟨nofun, fun h => absurd h (not_pending_of_ne nofun)⟩

/-- A trial is granted if the threshold is reached, no trial is pending, and the time since the
latest failure is up. -/
theorem trial_iff_of_log (hthreshold : 1 ≤ config.failureThreshold)
    (hreadings : ∀ now, (.failure, now) ∈ log → Moment.epoch ≤ now ∧ now.nanos ≤ nanosLimit)
    (now : Moment) :
    Trial config log now ↔ config.failureThreshold ≤ failuresInARow log ∧ ¬ Pending config log ∧
      ∃ wait last, config.reprobeAfter = some wait ∧ lastFailure? log = some last ∧
        wait ≤ last.elapsed now := by
  have hhealthy := healthy_after_iff hthreshold log
  have hprobing := probing_after_iff config log
  have hdegraded : (after config log).health = .degraded ↔
      config.failureThreshold ≤ failuresInARow log ∧ ¬ Pending config log := by
    rw [← Nat.not_lt, ← hhealthy, ← hprobing]
    cases (after config log).health <;> simp
  rw [trial_iff, hdegraded, and_assoc]
  refine and_congr_right fun hreached => and_congr_right fun _ => ?_
  obtain ⟨last, hlast⟩ := exists_lastFailure (Nat.lt_of_lt_of_le hthreshold hreached)
  rw [lastFailure_after hreadings hlast]
  constructor
  · rintro ⟨wait, hwait, hle⟩
    exact ⟨wait, last, hwait, hlast, hle⟩
  · rintro ⟨wait, last', hwait, hlast', hle⟩
    obtain rfl : last = last' := Option.some.inj (hlast.symm.trans hlast')
    exact ⟨wait, hwait, hle⟩

/-- **The breaker follows its log.** Its count is the number of failures since the last success or
reset, and it is healthy exactly below the threshold. Out of that it lets somebody through exactly
if no trial is pending and the time to wait has passed since the latest failure. So between two
trials a success, a failure or a reset is heard, and without a time to wait there is none. -/
theorem follows_log (config : HealthConfig) (hthreshold : 1 ≤ config.failureThreshold)
    (log : List (Event × Moment))
    (hreadings : ∀ now, (.failure, now) ∈ log → Moment.epoch ≤ now ∧ now.nanos ≤ nanosLimit) :
    (after config log).failures = failuresInARow log ∧
      ((after config log).health = .healthy ↔ failuresInARow log < config.failureThreshold) ∧
      (∀ now, Trial config log now ↔ config.failureThreshold ≤ failuresInARow log ∧
        ¬ Pending config log ∧
        ∃ wait last, config.reprobeAfter = some wait ∧ lastFailure? log = some last ∧
          wait ≤ last.elapsed now) ∧
      (∀ later now earlier now', log = later ++ (.allow, now) :: earlier →
        Trial config earlier now →
        Trial config log now' → ∃ e ∈ later, e.1 = .success ∨ e.1 = .failure ∨ e.1 = .reset) ∧
      (config.reprobeAfter = none → ∀ now, ¬ Trial config log now) := by
  have htrial := trial_iff_of_log hthreshold hreadings
  refine ⟨failures_after config log, healthy_after_iff hthreshold log, htrial, ?_,
    fun hnone now h => ?_⟩
  · intro later now earlier now' hlog hfirst hsecond
    refine Classical.byContradiction fun hnot => ((htrial now').1 hsecond).2.1 ?_
    refine ⟨later, now, earlier, hlog, hfirst, fun e he => ?_⟩
    obtain ⟨x, t⟩ := e
    cases x with
    | allow => rfl
    | success => exact absurd ⟨_, he, .inl rfl⟩ hnot
    | failure => exact absurd ⟨_, he, .inr (.inl rfl)⟩ hnot
    | reset => exact absurd ⟨_, he, .inr (.inr rfl)⟩ hnot
  · obtain ⟨-, -, wait, -, hwait, -⟩ := (htrial now).1 h
    cases hnone.symm.trans hwait

/-- Two failures trip the breaker, and ten seconds later it tries again. -/
def twoStrikes : HealthConfig := ⟨2, some (.ofSecs 10)⟩

/-- Failures at 0 s and 2 s, a question too early, the trial at 12 s, a question while it is
pending, and its failure at 9 s, for the clock has stepped back. The latest stands first. -/
def strikesAndTrial : List (Event × Moment) :=
  [(.failure, .ofMillis 9000), (.allow, .ofMillis 30000), (.allow, .ofMillis 12000),
    (.allow, .ofMillis 11999), (.failure, .ofMillis 2000), (.failure, .ofMillis 0)]

theorem follows_log_strikesAndTrial :
    1 ≤ twoStrikes.failureThreshold ∧
      (∀ now, (.failure, now) ∈ strikesAndTrial → Moment.epoch ≤ now ∧ now.nanos ≤ nanosLimit) ∧
      (after twoStrikes strikesAndTrial).failures = 3 ∧
      (after twoStrikes strikesAndTrial).health ≠ .healthy ∧
      Trial twoStrikes strikesAndTrial (.ofMillis 19000) ∧
      ¬ Trial twoStrikes strikesAndTrial (.ofMillis 18999) := by
  have hreadings : ∀ now, (.failure, now) ∈ strikesAndTrial → Moment.epoch ≤ now ∧
      now.nanos ≤ nanosLimit := by
    intro now h
    simp only [strikesAndTrial, List.mem_cons, Prod.mk.injEq, reduceCtorEq, false_and, true_and,
      false_or, or_false, List.not_mem_nil] at h
    rcases h with rfl | rfl | rfl <;> decide
  obtain ⟨hfailures, hhealthy, htrial, -, -⟩ :=
    follows_log twoStrikes (by decide) strikesAndTrial hreadings
  have hlast : lastFailure? strikesAndTrial = some (.ofMillis 9000) := by decide
  have hpending : ¬ Pending twoStrikes strikesAndTrial := not_pending_of_ne nofun
  refine ⟨by decide, hreadings, hfailures.trans (by decide), fun h =>
    absurd (hhealthy.1 h) (by decide), ?_, fun h => ?_⟩
  · exact (htrial _).2 ⟨by decide, hpending, .ofSecs 10, _, rfl, hlast, by decide⟩
  · obtain ⟨-, -, wait, last, hwait, hlast', hle⟩ := (htrial _).1 h
    cases hwait
    obtain rfl : Moment.ofMillis 9000 = last := Option.some.inj (hlast.symm.trans hlast')
    exact absurd hle (by decide)

end Breaker

end GuardedWrites

import GuardedWrites.Proofs.Rate.Traffic
import GuardedWrites.Rate.Exact
import Mathlib.Data.List.Perm.Subperm

/-!
# What brings the breaker back

The breaker turns healthy, and forgets the failures that it has counted, when it hears of a success.
An operation tells it so when the remote store has answered its last call. There is one exception: a
status read of no rules makes no call, and still reports a success.

* `Traffic.exists_answer_of_answered` — who stands as answered was answered;
* `Traffic.answered_of_improves` — what makes the breaker better is such a report;
* `Traffic.Tally` — a remote store that fails every call, as long as nobody reads the status of no
  rules: how often it was called, and how often the breaker has heard of it; `Tally.advance` is the
  step;
* `Traffic.improves_only_on_evidence` — both together.
-/

namespace GuardedWrites

namespace Traffic

open Limiter (Operation)

variable {ν ρ ω : Type}

/-! ### Evidence -/

/-- A breaker becomes healthy, or forgets a failure. -/
def Improves (b b' : Breaker) : Prop :=
  b.health ≠ .healthy ∧ b'.health = .healthy ∨ b'.failures < b.failures

/-- The remote store has answered a call of an operation. -/
def Answered (c : Scene ν ρ ω) (i : Nat) : Prop :=
  ∃ (r : RateStore.Request ν) (a : RateStore.Result r),
    (.call (.remote (.answer r)) (.ok a) : Deed (service ν)) ∈ Crowd.deeds i c.log

/-- Only an answer makes an operation stand as answered. -/
theorem Stage.next_eq_answered {s : Stage} {d : Deed (service ν)} (h : s.next d = .answered) :
    s = .answered ∨ ∃ (r : RateStore.Request ν) (a : RateStore.Result r),
      d = .call (.remote (.answer r)) (.ok a) := by
  unfold Stage.next at h
  split at h
  · cases h
  · cases h
  · exact .inr ⟨_, _, rfl⟩
  · cases h
  · cases h
  · cases h
  · exact .inl h

theorem exists_answer_of_answered {i : Nat} {log : List (Step (service ν) (Circumstances ω))}
    (h : (progress i log).stage = .answered) :
    ∃ (r : RateStore.Request ν) (a : RateStore.Result r),
      (.call (.remote (.answer r)) (.ok a) : Deed (service ν)) ∈ Crowd.deeds i log := by
  induction log with
  | nil => cases h
  | cons e log ih =>
    by_cases hi : e.who = i
    · subst hi
      rw [show e :: log = ⟨e.who, e.circumstances, e.deed⟩ :: log from rfl] at h ⊢
      rw [progress_cons_self] at h
      rw [Crowd.deeds_cons_self]
      rcases Stage.next_eq_answered h with h | ⟨r, a, hd⟩
      · obtain ⟨r, a, hmem⟩ := ih h
        exact ⟨r, a, List.mem_append_left _ hmem⟩
      · exact ⟨r, a, List.mem_append_right _ (hd ▸ .head _)⟩
    · rw [progress_cons_of_ne hi] at h
      rw [Crowd.deeds_cons_of_ne hi]
      exact ih h

theorem not_improves {b b' : Breaker} (hhealth : b'.health = .healthy → b.health = .healthy)
    (hfailures : b.failures ≤ b'.failures) : ¬ Improves b b' := by
  rintro (⟨hb, hb'⟩ | hlt)
  · exact hb (hhealth hb')
  · omega

/-- What a breaker hears makes it better only if it is a success. -/
theorem answered_of_improves {b : Breaker} {config : HealthConfig} {now : Moment}
    {d : Deed (service ν)} (h : Improves b (heard config now b d)) :
    ∃ x, d = .call (.own .remoteAnswered) x := by
  rcases heard_cases b config now d with ⟨x, -, hb⟩ | ⟨x, hd, -⟩ | ⟨x, -, hb⟩ | ⟨-, hb⟩
  · rw [hb] at h
    refine absurd h ?_
    rcases Breaker.allowRemote_cases b config now with ⟨-, hx⟩ | ⟨wait, -, -, -, hx⟩ | ⟨-, -, hx⟩
    · rw [hx]
      exact not_improves id (Nat.le_refl _)
    · rw [hx]
      exact not_improves nofun (Nat.le_refl _)
    · rw [hx]
      exact not_improves id (Nat.le_refl _)
  · exact ⟨x, hd⟩
  · rw [hb] at h
    refine absurd h (not_improves (fun hhealthy => ?_) (Nat.le_succ _))
    cases hh : b.health with
    | healthy => rfl
    | degraded => simp [Breaker.recordFailure, hh] at hhealthy
    | probing => simp [Breaker.recordFailure, hh] at hhealthy
  · rw [hb] at h
    exact absurd h (not_improves id (Nat.le_refl _))

section Counts

variable {ops : Nat → Option (Operation ν)} {c : Scene ν ρ ω} {i who : Nat} {o : Circumstances ω}
variable {d : Deed (service ν)}
variable {log : List (Step (service ν) (Circumstances ω))}

/-! ### A remote store that fails every call -/

/-- The operation is not a probe: it asks the breaker before it calls. -/
def guarded (ops : Nat → Option (Operation ν)) (i : Nat) : Bool :=
  match ops i with
  | some .probe => false
  | _ => true

/-- A deed by which the breaker lets an operation through. -/
def permits : Deed (service ν) → Bool
  | .call (.own .remoteAllowed) true => true
  | _ => false

/-- How often operations that ask the breaker have called the remote store. -/
def guardedArrivals (ops : Nat → Option (Operation ν))
    (log : List (Step (service ν) (Circumstances ω))) : Nat :=
  log.countP fun e => guarded ops e.who && arrives e.deed

/-- How often they have reported. -/
def guardedReports (ops : Nat → Option (Operation ν))
    (log : List (Step (service ν) (Circumstances ω))) : Nat :=
  log.countP fun e => guarded ops e.who && reports e.deed

/-- How often one was let through. -/
def permissions (log : List (Step (service ν) (Circumstances ω))) : Nat :=
  log.countP fun e => permits e.deed

/-- At most `n` operations that ask the breaker have something under way, those that were dropped
included. -/
def AtMost (n : Nat) (ops : Nat → Option (Operation ν)) (c : Scene ν ρ ω) : Prop :=
  ∀ L : List Nat, L.Nodup → (∀ i ∈ L, guarded ops i = true ∧ (progress i c.log).stage ≠ .away) →
    L.length ≤ n

/-- The remote store fails every call. -/
def FailsAll (R : RemoteStep ν ρ ω) : Prop :=
  ∀ o (r : RateStore.Request ν) s, ∃ e, (R o (.answer r) s).1 = .error e

/-- Who was let through calls once: the permissions that are not used yet belong to operations that
may call. -/
def CalledOnce (ops : Nat → Option (Operation ν))
    (log : List (Step (service ν) (Circumstances ω))) : Prop :=
  ∃ L : List Nat, guardedArrivals ops log + L.length = permissions log ∧
    ∀ i, (progress i log).stage = .granted → i ∈ L

/-- Who was let through is at it until the report: the permissions that nobody has reported on
belong to different operations that have something under way. -/
def UnderWay (ops : Nat → Option (Operation ν))
    (log : List (Step (service ν) (Circumstances ω))) : Prop :=
  ∃ L : List Nat, L.Nodup ∧ guardedReports ops log + L.length = permissions log ∧
    ∀ i, i ∈ L ↔ guarded ops i = true ∧ (progress i log).stage ≠ .away

/-- Without trials a question leaves the breaker as it is, and only a healthy one lets anybody
through. -/
theorem allowRemote_of_none {b : Breaker} {config : HealthConfig}
    (hconfig : config.reprobeAfter = none) (now : Moment) :
    (b.allowRemote config now).2 = b ∧
    ((b.allowRemote config now).1 = true → b.health = .healthy) := by
  rcases Breaker.allowRemote_cases b config now with ⟨hb, hx⟩ | ⟨wait, -, hwait, -⟩ | ⟨-, -, hx⟩
  · rw [hx]
    exact ⟨rfl, fun _ => hb⟩
  · cases hconfig.symm.trans hwait
  · rw [hx]
    exact ⟨rfl, nofun⟩

/-- A breaker that hears of a failure has tripped, or has still not heard of enough. -/
theorem tripped_recordFailure {b : Breaker} {config : HealthConfig} {now : Moment}
    (hb : b.health = .degraded ∨ b.health = .healthy ∧ b.failures < config.failureThreshold) :
    (b.recordFailure config now).health = .degraded ∨
    (b.recordFailure config now).health = .healthy ∧
      (b.recordFailure config now).failures < config.failureThreshold := by
  rcases hb with hb | ⟨hb, -⟩
  · left
    simp [Breaker.recordFailure, hb]
  · by_cases hlt : config.failureThreshold ≤ b.failures + 1
    · left
      simp [Breaker.recordFailure, hb, hlt]
    · right
      simp only [Breaker.recordFailure, hb, hlt, if_false, true_and]
      omega

theorem Stage.next_eq_granted {s : Stage} (h : s.next d = .granted) :
    s = .granted ∨ permits d = true := by
  unfold Stage.next at h
  split at h
  · exact .inr rfl
  · cases h
  · cases h
  · cases h
  · cases h
  · cases h
  · exact .inl h

theorem stage_cons_self (who : Nat) (o : Circumstances ω) (d : Deed (service ν))
    (log : List (Step (service ν) (Circumstances ω))) :
    (progress who (⟨who, o, d⟩ :: log)).stage = (progress who log).stage.next d := by
  rw [progress_cons_self]
  rfl

theorem countP_cons_toNat {α : Type} (p : α → Bool) (a : α) (l : List α) :
    (a :: l).countP p = l.countP p + (p a).toNat := by
  rw [List.countP_cons]
  cases p a <;> rfl

theorem permissions_cons (e : Step (service ν) (Circumstances ω))
    (log : List (Step (service ν) (Circumstances ω))) :
    permissions (e :: log) = permissions log + (permits e.deed).toNat := countP_cons_toNat _ e log

theorem guardedArrivals_cons (e : Step (service ν) (Circumstances ω))
    (log : List (Step (service ν) (Circumstances ω))) :
    guardedArrivals ops (e :: log) = guardedArrivals ops log +
      (guarded ops e.who && arrives e.deed).toNat :=
  countP_cons_toNat _ e log

theorem guardedReports_cons (e : Step (service ν) (Circumstances ω))
    (log : List (Step (service ν) (Circumstances ω))) :
    guardedReports ops (e :: log) = guardedReports ops log +
      (guarded ops e.who && reports e.deed).toNat :=
  countP_cons_toNat _ e log

theorem guarded_iff {op : Operation ν} (hop : ops i = some op) :
    guarded ops i = true ↔ op ≠ .probe := by
  unfold guarded
  rw [hop]
  cases op <;> simp

/-- What a step can do to the tally. -/
inductive Counted (ops : Nat → Option (Operation ν)) (who : Nat) (s : Stage) :
    Deed (service ν) → Prop where
  | permitted (asks : guarded ops who = true) (away : s = .away) :
      Counted ops who s (.call (.own .remoteAllowed) true)
  | arrived {x : Option Span} (asks : guarded ops who = true) (granted : s = .granted) :
      Counted ops who s (.call (.remote .arrive) x)
  | reported {x : Unit} (asks : guarded ops who = true) (away : s ≠ .away) :
      Counted ops who s (.call (.own .remoteFailed) x)
  | other {d : Deed (service ν)} (permits : permits d = false)
      (arrives : (guarded ops who && arrives d) = false)
      (reports : (guarded ops who && reports d) = false)
      (away : guarded ops who = true → (s.next d = .away ↔ s = .away)) : Counted ops who s d

theorem Counted.of_quiet {s : Stage} (hpermits : permits d = false) (harrives : arrives d = false)
    (hreports : reports d = false) (haway : s.next d = .away ↔ s = .away) : Counted ops who s d :=
  .other hpermits (by rw [harrives, Bool.and_false])
    (by rw [hreports, Bool.and_false]) fun _ => haway

theorem CalledOnce.cons (h : CalledOnce ops log) (hd : Counted ops who (progress who log).stage d) :
    CalledOnce ops (⟨who, o, d⟩ :: log) := by
  obtain ⟨L, hcount, hmem⟩ := h
  have hothers : ∀ i, i ≠ who → (progress i (⟨who, o, d⟩ :: log)).stage = .granted → i ∈ L := by
    intro i hi hstage
    rw [progress_cons_of_ne fun h => hi h.symm] at hstage
    exact hmem i hstage
  unfold CalledOnce
  rw [permissions_cons, guardedArrivals_cons]
  cases hd with
  | permitted asks away =>
    refine ⟨who :: L, ?_, fun i hstage => ?_⟩
    · simp only [permits, arrives, Bool.and_false, Bool.toNat_true, Bool.toNat_false,
        List.length_cons]
      omega
    · by_cases hi : i = who
      · exact hi ▸ .head _
      · exact .tail _ (hothers i hi hstage)
  | arrived asks granted =>
    have hwho : who ∈ L := hmem who granted
    have hpos : 0 < L.length := List.length_pos_of_mem hwho
    refine ⟨L.erase who, ?_, fun i hstage => ?_⟩
    · simp only [permits, arrives, asks, Bool.and_true, Bool.toNat_true, Bool.toNat_false,
        List.length_erase_of_mem hwho]
      omega
    · have hi : i ≠ who := by
        rintro rfl
        rw [stage_cons_self] at hstage
        cases hstage
      exact (List.mem_erase_of_ne hi).2 (hothers i hi hstage)
  | reported asks away =>
    refine ⟨L, ?_, fun i hstage => ?_⟩
    · simp only [permits, arrives, Bool.and_false, Bool.toNat_false]
      exact hcount
    · have hi : i ≠ who := by
        rintro rfl
        rw [stage_cons_self] at hstage
        cases hstage
      exact hothers i hi hstage
  | other hpermits harrives hreports haway =>
    refine ⟨L, ?_, fun i hstage => ?_⟩
    · simp only [hpermits, harrives, Bool.toNat_false]
      exact hcount
    · by_cases hi : i = who
      · subst hi
        rw [stage_cons_self] at hstage
        rcases Stage.next_eq_granted hstage with hstage | htrue
        · exact hmem i hstage
        · rw [hpermits] at htrue
          cases htrue
      · exact hothers i hi hstage

theorem UnderWay.cons (h : UnderWay ops log) (hd : Counted ops who (progress who log).stage d) :
    UnderWay ops (⟨who, o, d⟩ :: log) := by
  obtain ⟨L, hnodup, hcount, hmem⟩ := h
  have hothers :
      ∀ i, i ≠ who → (i ∈ L ↔ guarded ops i = true ∧
        (progress i (⟨who, o, d⟩ :: log)).stage ≠ .away) := by
    intro i hi
    rw [progress_cons_of_ne fun h => hi h.symm]
    exact hmem i
  unfold UnderWay
  rw [permissions_cons, guardedReports_cons]
  cases hd with
  | permitted asks away =>
    have hwho : who ∉ L := fun h => ((hmem who).1 h).2 away
    refine ⟨who :: L, List.nodup_cons.2 ⟨hwho, hnodup⟩, ?_, fun i => ?_⟩
    · simp only [permits, reports, Bool.and_false, Bool.toNat_true, Bool.toNat_false,
        List.length_cons]
      omega
    · by_cases hi : i = who
      · subst hi
        rw [stage_cons_self]
        exact ⟨fun _ => ⟨asks, nofun⟩, fun _ => .head _⟩
      · rw [List.mem_cons, ← hothers i hi]
        exact or_iff_right hi
  | arrived asks granted =>
    refine ⟨L, hnodup, ?_, fun i => ?_⟩
    · simp only [permits, reports, Bool.and_false, Bool.toNat_false]
      exact hcount
    · by_cases hi : i = who
      · subst hi
        rw [stage_cons_self, hmem i, granted]
        exact and_congr_right fun _ => ⟨nofun, nofun⟩
      · exact hothers i hi
  | reported asks away =>
    have hwho : who ∈ L := (hmem who).2 ⟨asks, away⟩
    have hpos : 0 < L.length := List.length_pos_of_mem hwho
    refine ⟨L.erase who, hnodup.erase who, ?_, fun i => ?_⟩
    · simp only [permits, reports, asks, Bool.and_true, Bool.toNat_true, Bool.toNat_false,
        List.length_erase_of_mem hwho]
      omega
    · rw [hnodup.mem_erase_iff]
      by_cases hi : i = who
      · subst hi
        rw [stage_cons_self]
        exact ⟨fun h => absurd rfl h.1, fun h => absurd rfl h.2⟩
      · rw [← hothers i hi]
        exact and_iff_right hi
  | other hpermits harrives hreports haway =>
    refine ⟨L, hnodup, ?_, fun i => ?_⟩
    · simp only [hpermits, hreports, Bool.toNat_false]
      exact hcount
    · by_cases hi : i = who
      · subst hi
        rw [stage_cons_self, hmem i]
        exact and_congr_right fun asks => not_congr (haway asks).symm
      · exact hothers i hi

end Counts

/-! ### The tally -/

section Steps

variable [Amount ν] {cfg : LimiterSettings} {R : RemoteStep ν ρ ω}
variable {ops : Nat → Option (Operation ν)}
variable {c : Scene ν ρ ω} {i who : Nat} {o : Circumstances ω} {d : Deed (service ν)} {n : Nat}
variable {q q' : Program (service ν) Operation.Result} {s' : State ν ρ}

/-- The step that makes the breaker better is taken by an operation that was answered, or that reads
the status of no rules. -/
theorem OnCourse.answered_of_improves (hc : OnCourse cfg ops c) (ht : c.tasks who = some q)
    (hn : q.next? (setting cfg R) o c.state = some (d, q', s'))
    (h : Improves c.state.limiter.breaker s'.limiter.breaker) :
    Answered c who ∨ ∃ key, ops who = some (.status key []) := by
  rw [breaker_of_next? hn] at h
  obtain ⟨x, rfl⟩ := Traffic.answered_of_improves h
  obtain ⟨op, hop, hf⟩ := hc.fits ht hn
  rcases hf with hanswered | ⟨-, key, rfl⟩
  · exact .inl (exists_answer_of_answered hanswered)
  · exact .inr ⟨key, hop⟩

/-- What holds of a limiter whose remote store fails every call, if there are no trials and nobody
reads the status of no rules. -/
structure Tally (cfg : LimiterSettings) (ops : Nat → Option (Operation ν)) (n : Nat)
    (c : Scene ν ρ ω) : Prop where
  onCourse : OnCourse cfg ops c
  unanswered : ∀ i, (progress i c.log).stage ≠ .answered
  /-- The breaker has tripped, or has not heard of enough failures. -/
  tripped : c.state.limiter.breaker.health = .degraded ∨ c.state.limiter.breaker.health = .healthy ∧
    c.state.limiter.breaker.failures < cfg.health.failureThreshold
  heard : guardedReports ops c.log ≤ c.state.limiter.breaker.failures
  called : CalledOnce ops c.log
  underWay : UnderWay ops c.log
  within : permissions c.log ≤ cfg.health.failureThreshold + n

/-- A call of a store that fails all of them is refused. -/
theorem next_ne_answered (hR : FailsAll R) {s : Stage} (hs : s ≠ .answered)
    (hn : q.next? (setting cfg R) o c.state = some (d, q', s')) : s.next d ≠ .answered := by
  intro h
  rcases Stage.next_eq_answered h with h | ⟨r, a, rfl⟩
  · exact hs h
  · obtain ⟨hx, -⟩ := Program.answer_of_next? hn
    obtain ⟨e, he⟩ := hR o.remote r c.state.remote
    have hx : Except.ok a = (R o.remote (.answer r) c.state.remote).1 := hx
    rw [he] at hx
    cases hx

/-- What an operation that asks the breaker can do, as long as no call is answered. -/
theorem counted_of_fits {op : Operation ν} {p : Progress} (hf : Fits cfg op p d)
    (hop : ops who = some op) (hasks : guarded ops who = true)
    (hstatus : ∀ key, op ≠ .status key []) (hp : p.stage ≠ .answered)
    (hnext : p.stage.next d ≠ .answered) :
    Counted ops who p.stage d := by
  cases d with
  | wait => exact .of_quiet rfl rfl rfl .rfl
  | call r x =>
    cases r with
    | own r =>
      cases r with
      | remoteAllowed =>
        cases x with
        | false => exact .of_quiet rfl rfl rfl .rfl
        | true => exact .permitted hasks hf.1
      | remoteAnswered =>
        rcases hf with h | ⟨-, key, h⟩
        · exact absurd h hp
        · exact absurd h (hstatus key)
      | remoteFailed =>
        refine .reported hasks fun haway => ?_
        rcases hf with h | h
        · cases haway.symm.trans h
        · cases haway.symm.trans h
      | _ => exact .of_quiet rfl rfl rfl .rfl
    | remote r =>
      cases r with
      | arrive =>
        rcases hf with h | h | ⟨-, h⟩
        · exact .arrived hasks h
        · exact absurd h hp
        · exact absurd h ((guarded_iff hop).1 hasks)
      | answer r =>
        refine .of_quiet rfl rfl rfl ?_
        cases x with
        | ok a => exact absurd rfl hnext
        | error e =>
          rw [calling_of_fits hf]
          exact ⟨nofun, nofun⟩

/-- A probe is not let through, for it does not ask. -/
theorem guarded_of_permits {op : Operation ν} {p : Progress} (hf : Fits cfg op p d)
    (hop : ops who = some op) (hd : permits d = true) :
    guarded ops who = true := by
  unfold permits at hd
  split at hd
  · exact (guarded_iff hop).2 hf.2
  · cases hd

theorem Tally.counted (hR : FailsAll R) (hstatus : ∀ i key, ops i ≠ some (.status key []))
    (hc : Tally cfg ops n c) (ht : c.tasks who = some q)
    (hn : q.next? (setting cfg R) o c.state = some (d, q', s')) :
    Counted ops who (progress who c.log).stage d := by
  obtain ⟨op, hop, hf⟩ := hc.onCourse.fits ht hn
  cases hasks : guarded ops who with
  | true =>
    refine counted_of_fits hf hop hasks ?_ (hc.unanswered who)
      (next_ne_answered hR (hc.unanswered who) hn)
    rintro key rfl
    exact hstatus who key hop
  | false =>
    have hpermits : permits d = false := by
      cases hd : permits d with
      | false => rfl
      | true => cases hasks.symm.trans (guarded_of_permits hf hop hd)
    refine .other hpermits (by rw [hasks, Bool.false_and])
      (by rw [hasks, Bool.false_and]) fun h => ?_
    cases hasks.symm.trans h

/-- While no call is answered the breaker hears of failures, or of nothing. -/
theorem Tally.breaker (hconfig : cfg.health.reprobeAfter = none)
    (hstatus : ∀ i key, ops i ≠ some (.status key [])) (hc : Tally cfg ops n c)
    (ht : c.tasks who = some q) (hn : q.next? (setting cfg R) o c.state = some (d, q', s')) :
    s'.limiter.breaker = c.state.limiter.breaker ∧ reports d = false ∨
      permits d = false ∧ s'.limiter.breaker =
        c.state.limiter.breaker.recordFailure cfg.health o.now := by
  obtain ⟨op, hop, hf⟩ := hc.onCourse.fits ht hn
  rw [breaker_of_next? hn]
  rcases heard_cases c.state.limiter.breaker cfg.health o.now d with
    ⟨x, rfl, hb⟩ | ⟨x, rfl, -⟩ | ⟨x, rfl, hb⟩ | ⟨hd, hb⟩
  · exact .inl ⟨hb.trans (allowRemote_of_none hconfig o.now).1, rfl⟩
  · rcases hf with h | ⟨-, key, rfl⟩
    · exact absurd h (hc.unanswered who)
    · exact absurd hop (hstatus who key)
  · exact .inr ⟨rfl, hb⟩
  · exact .inl ⟨hb, hd⟩

/-- Who is let through finds fewer failures than the breaker takes. -/
theorem Tally.failures_lt (hconfig : cfg.health.reprobeAfter = none) (hc : Tally cfg ops n c)
    (hn : q.next? (setting cfg R) o c.state = some (d, q', s')) (hd : permits d = true) :
    c.state.limiter.breaker.failures < cfg.health.failureThreshold := by
  unfold permits at hd
  split at hd
  · have hgranted := (granted_of_next? hn).symm
    have hhealthy := (allowRemote_of_none hconfig o.now).2 hgranted
    rcases hc.tripped with hb | ⟨-, hlt⟩
    · cases hhealthy.symm.trans hb
    · exact hlt
  · cases hd

theorem Tally.advance (hconfig : cfg.health.reprobeAfter = none) (hR : FailsAll R)
    (hstatus : ∀ i key, ops i ≠ some (.status key [])) (hc : Tally cfg ops n c)
    (ht : c.tasks who = some q) (hn : q.next? (setting cfg R) o c.state = some (d, q', s'))
    (hmost : AtMost (n + 1) ops (c.advance who o d q' s')) :
    Tally cfg ops n (c.advance who o d q' s') := by
  have hd := hc.counted hR hstatus ht hn
  have hunderWay : UnderWay ops (c.advance who o d q' s').log := hc.underWay.cons hd
  have hbreaker := hc.breaker hconfig hstatus ht hn
  have hheard : guardedReports ops (c.advance who o d q' s').log ≤ s'.limiter.breaker.failures := by
    show guardedReports ops (⟨who, o, d⟩ :: c.log) ≤ _
    rw [guardedReports_cons]
    have hold := hc.heard
    rcases hbreaker with ⟨hb, hreports⟩ | ⟨-, hb⟩
    · rw [hb, hreports, Bool.and_false]
      exact hold
    · rw [hb]
      have hone := Bool.toNat_le (guarded ops who && reports d)
      show _ + (guarded ops who && reports d).toNat ≤ c.state.limiter.breaker.failures + 1
      omega
  refine ⟨hc.onCourse.advance ht hn, fun i => ?_, ?_, hheard, hc.called.cons hd, hunderWay, ?_⟩
  · show (progress i (⟨who, o, d⟩ :: c.log)).stage ≠ .answered
    by_cases hi : i = who
    · subst hi
      rw [stage_cons_self]
      exact next_ne_answered hR (hc.unanswered i) hn
    · rw [progress_cons_of_ne fun h => hi h.symm]
      exact hc.unanswered i
  · rcases hbreaker with ⟨hb, -⟩ | ⟨-, hb⟩
    · rw [show (c.advance who o d q' s').state.limiter.breaker = _ from hb]
      exact hc.tripped
    · rw [show (c.advance who o d q' s').state.limiter.breaker = _ from hb]
      exact tripped_recordFailure hc.tripped
  · cases hpermits : permits d with
    | false =>
      show permissions (⟨who, o, d⟩ :: c.log) ≤ _
      rw [permissions_cons, hpermits]
      exact hc.within
    | true =>
      -- whoever is let through finds too few failures, and at most `n` others have not reported yet
      have hlt := hc.failures_lt hconfig hn hpermits
      have hsame : s'.limiter.breaker = c.state.limiter.breaker := by
        rcases hbreaker with ⟨hb, -⟩ | ⟨hnot, -⟩
        · exact hb
        · cases hpermits.symm.trans hnot
      rw [hsame] at hheard
      obtain ⟨L, hnodup, hcount, hmem⟩ := hunderWay
      have hlength := hmost L hnodup fun i hi => (hmem i).1 hi
      omega

theorem Tally.forget (hc : Tally cfg ops n c) (who : Nat) : Tally cfg ops n (c.forget who) :=
  ⟨hc.onCourse.forget who, hc.unanswered, hc.tripped, hc.heard, hc.called, hc.underWay, hc.within⟩

theorem Tally.start {reach : Bool} {s : State ν ρ} (hcfg : cfg.fault? = none)
    (hs : s.limiter.breaker = .initial) :
    Tally cfg ops n (Crowd.start s (calls cfg reach ops) : Scene ν ρ ω) := by
  have hpos : 0 < cfg.health.failureThreshold := by
    refine Nat.pos_of_ne_zero fun h => ?_
    unfold LimiterSettings.fault? at hcfg
    split at hcfg
    · cases hcfg
    · cases hcfg
  have hcalled : CalledOnce ops ([] : List (Step (service ν) (Circumstances ω))) := by
    refine ⟨[], rfl, fun i h => ?_⟩
    cases h
  have hunderWay : UnderWay ops ([] : List (Step (service ν) (Circumstances ω))) :=
    ⟨[], .nil, rfl, fun i => ⟨fun h => absurd h List.not_mem_nil, fun h => absurd rfl h.2⟩⟩
  refine ⟨OnCourse.start cfg reach ops s, fun i => nofun, .inr ?_, Nat.zero_le _, hcalled,
    hunderWay, Nat.zero_le _⟩
  show s.limiter.breaker.health = .healthy ∧ s.limiter.breaker.failures < _
  rw [hs]
  exact ⟨rfl, hpos⟩

/-- **Health improves only on evidence.** In every run, and whatever is dropped in it, a step that
makes the breaker healthy, or forgets failures, is the step of an operation that the remote store
has answered, or of a status read of no rules. Hence a remote store that fails every call is called
by those who ask the breaker no more often than the breaker takes failures, if nobody reads the
status of no rules, there are no trials, and they come one after another; and once more for each one
more that has something under way at the same time. -/
theorem improves_only_on_evidence (cfg : LimiterSettings) (hcfg : cfg.fault? = none) (reach : Bool)
    (R : RemoteStep ν ρ ω) (ops : Nat → Option (Operation ν)) (s : State ν ρ)
    (hs : s.limiter.breaker = .initial) (ms : List (Move (Circumstances ω))) (c : Scene ν ρ ω)
    (hc : c = (Crowd.start s (calls cfg reach ops)).play (setting cfg R) ms) :
    (∀ (who : Nat) (o : Circumstances ω), Improves c.state.limiter.breaker
        (c.move (setting cfg R) (.step who o)).state.limiter.breaker →
      Answered c who ∨ ∃ key, ops who = some (.status key [])) ∧
    (cfg.health.reprobeAfter = none → FailsAll R → (∀ i key, ops i ≠ some (.status key [])) →
      ∀ n, Crowd.Throughout (setting cfg R)
        (fun c mv => AtMost (n + 1) ops (c.move (setting cfg R) mv))
        (Crowd.start s (calls cfg reach ops)) ms →
      guardedArrivals ops c.log ≤ cfg.health.failureThreshold + n) := by
  subst hc
  refine ⟨fun who o h => ?_, fun hconfig hR hstatus n hmost => ?_⟩
  · have hcourse := onCourse_play cfg reach R ops s ms
    rcases Crowd.move_step_cases _ who o with hm | ⟨q, d, q', s', ht, hn, hm⟩
    · rw [hm] at h
      exact absurd h (not_improves id (Nat.le_refl _))
    · rw [hm] at h
      exact hcourse.answered_of_improves ht hn h
  · have htally :
        Tally cfg ops n ((Crowd.start s (calls cfg reach ops)).play (setting cfg R) ms) := by
      refine Crowd.play_invariant_under (fun c who o q d q' s' hc hmost ht hn => ?_)
        (fun c who hc => hc.forget who) (Tally.start hcfg hs) hmost
      rw [Crowd.move_step ht hn] at hmost
      exact hc.advance hconfig hR hstatus ht hn hmost
    obtain ⟨L, hcount, -⟩ := htally.called
    have hwithin := htally.within
    omega

/-! ### A status read of no rules -/

/-- Whether operations with numbers below `m` have taken all steps, and at most `n` of those that
ask the breaker have something under way. -/
def atMost (n m : Nat) (ops : Nat → Option (Operation ν)) (c : Scene ν ρ ω) : Bool :=
  (c.log.all fun e => e.who < m) &&
    decide (((List.range m).filter fun i =>
      guarded ops i && decide ((progress i c.log).stage ≠ .away)).length ≤ n)

/-- Whether that is so after every move. -/
def staysAtMost (cfg : LimiterSettings) (R : RemoteStep ν ρ ω) (n m : Nat)
    (ops : Nat → Option (Operation ν)) :
    Scene ν ρ ω → List (Move (Circumstances ω)) → Bool
  | _, [] => true
  | c, mv :: ms =>
    atMost n m ops (c.move (setting cfg R) mv) && staysAtMost cfg R n m ops
      (c.move (setting cfg R) mv) ms

omit [Amount ν] in
theorem AtMost.of_atMost {m : Nat} (h : atMost n m ops c = true) : AtMost n ops c := by
  obtain ⟨hwho, hlength⟩ := Bool.and_eq_true_iff.1 h
  intro L hnodup hL
  refine Nat.le_trans (List.subperm_of_subset hnodup fun i hi =>
    ?_).length_le (of_decide_eq_true hlength)
  obtain ⟨hasks, hstage⟩ := hL i hi
  have hlt : i < m := by
    refine Nat.lt_of_not_le fun hle => hstage ?_
    have hdeeds : Crowd.deeds i c.log = [] := by
      refine List.eq_nil_iff_forall_not_mem.2 fun d hd => ?_
      obtain ⟨e, he, rfl, -⟩ := Crowd.mem_deeds.1 hd
      have hlt := of_decide_eq_true (List.all_eq_true.1 hwho e he)
      omega
    unfold progress
    rw [hdeeds]
    rfl
  refine List.mem_filter.2 ⟨List.mem_range.2 hlt,
    Bool.and_eq_true_iff.2 ⟨hasks, decide_eq_true hstage⟩⟩

theorem throughout_of_staysAtMost {m : Nat} {ms : List (Move (Circumstances ω))}
    (h : staysAtMost cfg R n m ops c ms = true) :
    Crowd.Throughout (setting cfg R)
      (fun c mv => AtMost n ops (c.move (setting cfg R) mv)) c ms := by
  induction ms generalizing c with
  | nil => trivial
  | cons mv ms ih =>
    obtain ⟨hmv, hms⟩ := Bool.and_eq_true_iff.1 h
    exact ⟨.of_atMost hmv, ih hms⟩

end Steps

/-- A remote store that is out of order. -/
def dead : RemoteStep Rat Unit Unit
  | _, .arrive, s => (none, s)
  | _, .answer _, s => (.error (.unavailable "connection refused"), s)

theorem failsAll_dead : FailsAll dead := fun _ _ _ => ⟨_, rfl⟩

/-- Two failures trip the breaker, for good. -/
def twoFailures : LimiterSettings := ⟨.standard, ⟨2, none⟩⟩

/-- Three requests a minute. -/
def threeAMinute : Rule Rat := ⟨some "three", .window ⟨3, 60⟩⟩

/-- Checks for one user. -/
def onlyChecks (i : Nat) : Option (Operation Rat) :=
  if i < 4 then some (.check "ann" [threeAMinute]) else none

/-- Among checks for one user a status read of no rules. -/
def oneStatus (i : Nat) : Option (Operation Rat) :=
  if i = 1 then some (.status "ann" []) else onlyChecks i

/-- Operations run to their ends, one after another. -/
def oneAfterAnother (is : List Nat) : List (Move (Circumstances Unit)) :=
  is.flatMap fun i => List.replicate 9 (.step i ⟨.ofMillis 0, 0, ()⟩)

/-- Two checks reach the remote store that is out of order. The other two do not. -/
theorem improves_only_on_evidence_onlyChecks :
    twoFailures.fault? = none ∧ (∀ i key, onlyChecks i ≠ some (.status key [])) ∧
      guardedArrivals onlyChecks
        ((Crowd.start ⟨.initial, ()⟩ (calls twoFailures true onlyChecks) : Scene Rat Unit Unit).play
          (setting twoFailures dead) (oneAfterAnother [0, 1, 2, 3])).log ≤ 2 + 0 := by
  have hstatus : ∀ i key, onlyChecks i ≠ some (.status key []) := by
    intro i key h
    unfold onlyChecks at h
    split at h <;> cases h
  refine ⟨by decide, hstatus, ?_⟩
  have hevidence := improves_only_on_evidence twoFailures (by decide) true dead onlyChecks
    ⟨.initial, ()⟩ rfl (oneAfterAnother [0, 1, 2, 3]) _ rfl
  exact hevidence.2 rfl failsAll_dead hstatus 0 (throughout_of_staysAtMost (m := 4) (by decide))

/-- Between the first check and the second somebody reads the status of no rules. That makes no
call, and the breaker forgets the failure. The store that fails every call is called three times. -/
theorem status_of_no_rules_forgets :
    let c (is : List Nat) :=
      (Crowd.start ⟨.initial, ()⟩ (calls twoFailures true oneStatus) : Scene Rat Unit Unit).play
        (setting twoFailures dead) (oneAfterAnother is)
    FailsAll dead ∧ (c [0]).state.limiter.breaker.failures = 1 ∧
    (c [0, 1]).state.limiter.breaker.failures = 0 ∧
      ((Crowd.deeds 1 (c [0, 1]).log).all fun d => !arrives d) = true ∧
      twoFailures.health.failureThreshold < guardedArrivals oneStatus (c [0, 1, 2, 3]).log :=
  ⟨failsAll_dead, by decide, by decide, by decide, by decide⟩

end Traffic

end GuardedWrites

import GuardedWrites.Proofs.Rate.SlotCapacity
import GuardedWrites.Proofs.Rate.Traffic

/-!
# A limiter alone

Without a remote store a limiter is its slots: every operation runs to its end without a wait, what
it answers can be read off the slots, and its other state takes no part.

* `Limiter.serve`, `Limiter.after`, `Limiter.transcript` — operations one after the other, each at a
  clock reading;
* `Slots.answer` — the same on the slots alone, and `Limiter.serve_eq` says so;
* `Limiter.size_after_le` — there are never more slots than the configuration allows.
-/

namespace GuardedWrites

/-- What goes on behind a program that came to its end. -/
theorem Program.run_bind_of_run {S : Service} {α β σ : Type}
    {answer : (r : S.Request) → σ → S.Reply r × σ} {p : Program S α} {s s' : σ} {n n' : Nat} {a : α}
    (h : p.run answer s n = (some a, s', n')) (f : α → Program S β) :
    (p.bind f).run answer s n = (f a).run answer s' n' := by
  rw [run_bind, h]

namespace Limiter

variable {ν : Type}

/-- A limiter without a remote store. -/
def alone (cfg : LimiterSettings) : Limiter ν (Program (service ν)) := ⟨cfg, Program.ask, none⟩

/-- The usual settings. -/
def usual : LimiterSettings := ⟨.standard, .standard⟩

/-- An operation, and what the clock says then. -/
structure Call (ν : Type) where
  op : Operation ν
  now : Moment

/-- The key of an operation, if it is about one. -/
def Operation.key? : Operation ν → Option String
  | .check key _ | .enforce key _ | .status key _ | .reset key => some key
  | .probe => none

/-- Whether a result is a verdict, and allows. -/
def Operation.Result.allowed? : Operation.Result → Option Bool
  | .verdict (.ok v) => some v.allowed
  | _ => none

section Run

variable [Amount ν]

/-- An operation checks or reads rules of a key, under some of the labels. -/
def Operation.Concerns (key : String) (labels : String → Prop) : Operation ν → Prop
  | .check k rules | .enforce k rules | .status k rules => k = key ∧
      ∀ rule ∈ rules, labels rule.label
  | .reset _ | .probe => False

/-- Serves a call. The result is none if it never ends. -/
def serve (cfg : LimiterSettings) (s : State ν) (c : Call ν) : Option Operation.Result × State ν :=
  let x := ((alone cfg).perform c.op).run (fun r s => step cfg c.now s r) s 0
  (x.1, x.2.1)

/-- The state after some calls. -/
def after (cfg : LimiterSettings) (s : State ν) (calls : List (Call ν)) : State ν :=
  calls.foldl (fun s c => (serve cfg s c).2) s

/-- Calls one after the other, with their results. -/
def transcript (cfg : LimiterSettings) :
    State ν → List (Call ν) → List (Call ν × Option Operation.Result)
  | _, [] => []
  | s, c :: rest => (c, (serve cfg s c).1) :: transcript cfg (serve cfg s c).2 rest

end Run

end Limiter

namespace LimiterSettings

/-- A limiter that can be built has room for a slot. -/
theorem maxTrackedKeys_pos {cfg : LimiterSettings} (h : cfg.fault? = none) :
    0 < cfg.config.maxTrackedKeys := by
  apply Nat.pos_of_ne_zero
  intro hzero
  rw [fault?, if_pos hzero] at h
  split at h
  · cases h
  · split at h <;> cases h

end LimiterSettings

/-! ### On the slots -/

namespace Slots

open Limiter (Operation Call)

variable {ν : Type} [Amount ν]

/-- Judges one rule of a key. -/
abbrev judgeRule (cfg : LimiterSettings) (s : Slots ν) (key : String) (rule : Rule ν)
    (now : Moment) :
    Outcome × Slots ν :=
  s.judge cfg.policy (cfg.storeKey key rule.label) rule.algorithm now

/-- Judges the rules of a key in order, up to the first denial. -/
def judgeAll (cfg : LimiterSettings) (key : String) (now : Moment) :
    (s : Slots ν) → (remaining : Nat) → List (Rule ν) → Verdict × Slots ν
  | s, remaining, [] => (⟨true, remaining, 0⟩, s)
  | s, remaining, rule :: rest =>
    let x := s.judgeRule cfg key rule now
    if x.1.allowed then judgeAll cfg key now x.2 (min remaining x.1.remaining) rest
    else (⟨false, 0, x.1.retryAfter.seconds⟩, x.2)

/-- Judges the rules of a key, if all of them can be enforced. -/
def check (cfg : LimiterSettings) (s : Slots ν) (key : String) (rules : List (Rule ν))
    (now : Moment) :
    Except Failure Verdict × Slots ν :=
  match Rule.firstFault? rules with
  | some fault => (.error (.invalidRule fault), s)
  | none =>
    let x := judgeAll cfg key now s countLimit rules
    (.ok x.1, x.2)

/-- The statuses of the rules of a key, in their order. -/
def statuses (cfg : LimiterSettings) (s : Slots ν) (key : String) (rules : List (Rule ν))
    (now : Moment) : List RuleStatus :=
  rules.map fun rule => s.status (cfg.storeKey key rule.label) rule now

/-- Reads the rules of a key, if all of them can be enforced. -/
def report (cfg : LimiterSettings) (s : Slots ν) (key : String) (rules : List (Rule ν))
    (now : Moment) : Except Failure StatusReport :=
  match Rule.firstFault? rules with
  | some fault => .error (.invalidRule fault)
  | none => .ok ⟨key, s.statuses cfg key rules now, .here⟩

/-- Answers a call. -/
def answer (cfg : LimiterSettings) (s : Slots ν) (c : Call ν) : Operation.Result × Slots ν :=
  match c.op with
  | .check key rules =>
    let x := s.check cfg key rules c.now
    (.verdict x.1, x.2)
  | .enforce key rules =>
    let x := s.check cfg key rules c.now
    (.verdict (x.1.bind Verdict.toExcept), x.2)
  | .status key rules => (.report (s.report cfg key rules c.now), s)
  | .reset key => (.done, (s.removeStarting (cfg.storeStart key)).2)
  | .probe => (.reachable false, s)

variable {cfg : LimiterSettings} {s : Slots ν} {key : String} {now : Moment} {rule : Rule ν}
variable {rules rest : List (Rule ν)}
variable {remaining : Nat} {c : Call ν}

theorem judgeAll_of_allowed (h : (s.judgeRule cfg key rule now).1.allowed = true) :
    s.judgeAll cfg key now remaining (rule :: rest) =
      (s.judgeRule cfg key rule now).2.judgeAll cfg key now
      (min remaining (s.judgeRule cfg key rule now).1.remaining) rest :=
  if_pos h

theorem judgeAll_of_denied (h : ¬ (s.judgeRule cfg key rule now).1.allowed = true) :
    s.judgeAll cfg key now remaining (rule :: rest) =
      (⟨false, 0, (s.judgeRule cfg key rule now).1.retryAfter.seconds⟩,
        (s.judgeRule cfg key rule now).2) :=
  if_neg h

/-! What each rule of a call keeps, the call keeps. -/

/-- Every rule that is judged, up to the first denial, meets a condition on the slots that it finds,
on its name there and on its algorithm. -/
def RulesMeet (cfg : LimiterSettings) (key : String) (now : Moment)
    (P : Slots ν → String → Algorithm ν → Prop) :
    (s : Slots ν) → List (Rule ν) → Prop
  | _, [] => True
  | s, rule :: rest =>
    P s (cfg.storeKey key rule.label) rule.algorithm ∧
    ((s.judgeRule cfg key rule now).1.allowed = true →
      RulesMeet cfg key now P (s.judgeRule cfg key rule now).2 rest)

/-- Every rule that a call judges meets a condition. -/
def CallMeets (cfg : LimiterSettings) (P : Slots ν → String → Algorithm ν → Prop) (s : Slots ν)
    (c : Call ν) : Prop :=
  ∀ key rules, c.op.check? = some (key, rules) → Rule.firstFault? rules = none →
    s.RulesMeet cfg key c.now P rules

/-- No key is given up for a request. -/
def Quiet (cfg : LimiterSettings) (now : Moment) (s : Slots ν) (name : String)
    (a : Algorithm ν) : Prop :=
  (s.judge cfg.policy name a now).2.evictions = s.evictions

variable {P : Slots ν → String → Algorithm ν → Prop} {N : String → Prop} {I : Slots ν → Prop}
variable {R : Slots ν → Slots ν → Prop} {labels : String → Prop}

theorem rulesMeet_of_forall (h : ∀ s name a, P s name a) : s.RulesMeet cfg key now P rules := by
  induction rules generalizing s with
  | nil => trivial
  | cons rule rest ih => exact ⟨h _ _ _, fun _ => ih⟩

/-- A property that every request under some names keeps, if it meets the condition, the rules with
these names keep. -/
theorem judgeAll_keeps
    (hstep : ∀ s name a, N name → I s → P s name a → I (s.judge cfg.policy name a now).2)
    (hrules : ∀ rule ∈ rules, N (cfg.storeKey key rule.label)) (h : I s)
    (hmeets : s.RulesMeet cfg key now P rules) :
    I (s.judgeAll cfg key now remaining rules).2 := by
  induction rules generalizing s remaining with
  | nil => exact h
  | cons rule rest ih =>
    obtain ⟨hfirst, hlater⟩ := hmeets
    have hjudged := hstep s _ rule.algorithm (hrules rule (.head _)) h hfirst
    by_cases hallowed : (s.judgeRule cfg key rule now).1.allowed = true
    · rw [judgeAll_of_allowed hallowed]
      exact ih (fun r hr => hrules r (.tail _ hr)) hjudged (hlater hallowed)
    · rw [judgeAll_of_denied hallowed]
      exact hjudged

/-- If every request under some names has one outcome in both slots and keeps a relation between
them, so do the rules with these names. -/
theorem judgeAll_alike {s' : Slots ν}
    (hstep : ∀ s s' name a, N name → R s s' → P s name a →
      (s'.judge cfg.policy name a now).1 = (s.judge cfg.policy name a now).1 ∧
        R (s.judge cfg.policy name a now).2 (s'.judge cfg.policy name a now).2)
    (hrules : ∀ rule ∈ rules, N (cfg.storeKey key rule.label)) (h : R s s')
    (hmeets : s.RulesMeet cfg key now P rules) :
    (s'.judgeAll cfg key now remaining rules).1 = (s.judgeAll cfg key now remaining rules).1 ∧
      R (s.judgeAll cfg key now remaining rules).2 (s'.judgeAll cfg key now remaining rules).2 := by
  induction rules generalizing s s' remaining with
  | nil => exact ⟨rfl, h⟩
  | cons rule rest ih =>
    obtain ⟨hfirst, hlater⟩ := hmeets
    obtain ⟨hfst, hsnd⟩ : (s'.judgeRule cfg key rule now).1 = (s.judgeRule cfg key rule now).1 ∧
        R (s.judgeRule cfg key rule now).2 (s'.judgeRule cfg key rule now).2 :=
      hstep s s' _ rule.algorithm (hrules rule (.head _)) h hfirst
    by_cases hallowed : (s.judgeRule cfg key rule now).1.allowed = true
    · rw [judgeAll_of_allowed hallowed, judgeAll_of_allowed (hfst ▸ hallowed), hfst]
      exact ih (fun r hr => hrules r (.tail _ hr)) hsnd (hlater hallowed)
    · rw [judgeAll_of_denied hallowed, judgeAll_of_denied (hfst ▸ hallowed), hfst]
      exact ⟨rfl, hsnd⟩

theorem evictions_le_judgeAll (cfg : LimiterSettings) (key : String) (now : Moment)
    (rules : List (Rule ν)) (s : Slots ν) (remaining : Nat) :
    s.evictions ≤ (s.judgeAll cfg key now remaining rules).2.evictions := by
  refine judgeAll_keeps (N := fun _ => True) (P := fun _ _ _ => True)
    (I := fun x => s.evictions ≤ x.evictions)
    (fun x name a _ hx _ => ?_) (fun _ _ => trivial) (Nat.le_refl _)
    (rulesMeet_of_forall fun _ _ _ => trivial)
  exact Nat.le_trans hx (x.evictions_le_judge cfg.policy name a now)

theorem size_judgeAll_le (hcfg : cfg.fault? = none) (hsize : s.size ≤ cfg.config.maxTrackedKeys) :
    (s.judgeAll cfg key now remaining rules).2.size ≤ cfg.config.maxTrackedKeys := by
  refine judgeAll_keeps (N := fun _ => True) (P := fun _ _ _ => True)
    (I := fun x => x.size ≤ cfg.config.maxTrackedKeys)
    (fun x name a _ hx _ => ?_) (fun _ _ => trivial) hsize
    (rulesMeet_of_forall fun _ _ _ => trivial)
  exact size_judge_le (LimiterSettings.maxTrackedKeys_pos hcfg) hx name a now

/-- Rules that give up nothing together give up nothing one by one. -/
theorem rulesMeet_of_evictions
    (h : (s.judgeAll cfg key now remaining rules).2.evictions = s.evictions) :
    s.RulesMeet cfg key now (Quiet cfg now) rules := by
  induction rules generalizing s remaining with
  | nil => trivial
  | cons rule rest ih =>
    have hfirst := s.evictions_le_judge cfg.policy (cfg.storeKey key rule.label) rule.algorithm now
    by_cases hallowed : (s.judgeRule cfg key rule now).1.allowed = true
    · rw [judgeAll_of_allowed hallowed] at h
      have hlater := evictions_le_judgeAll cfg key now rest (s.judgeRule cfg key rule now).2
        (min remaining (s.judgeRule cfg key rule now).1.remaining)
      have hnone : (s.judgeRule cfg key rule now).2.evictions = s.evictions :=
          Nat.le_antisymm (h ▸ hlater) hfirst
      exact ⟨hnone, fun _ => ih (h.trans hnone.symm)⟩
    · rw [judgeAll_of_denied hallowed] at h
      exact ⟨h, fun h => absurd h hallowed⟩

theorem check_cases (cfg : LimiterSettings) (s : Slots ν) (key : String) (rules : List (Rule ν))
    (now : Moment) :
    (∃ fault, s.check cfg key rules now = (.error (.invalidRule fault), s)) ∨
      s.check cfg key rules now = (.ok (s.judgeAll cfg key now countLimit rules).1,
        (s.judgeAll cfg key now countLimit rules).2) := by
  unfold check
  split
  · exact .inl ⟨_, rfl⟩
  · exact .inr rfl

/-- A call leaves the slots as they are, judges rules, or forgets a key. -/
theorem answer_cases (cfg : LimiterSettings) (s : Slots ν) (c : Call ν) :
    (s.answer cfg c).2 = s ∨
      (∃ key rules, (s.answer cfg c).2 = (s.judgeAll cfg key c.now countLimit rules).2) ∨
      ∃ key, (s.answer cfg c).2 = (s.removeStarting (cfg.storeStart key)).2 := by
  have hcheck : ∀ key rules, (s.check cfg key rules c.now).2 = s ∨
      (s.check cfg key rules c.now).2 = (s.judgeAll cfg key c.now countLimit rules).2 := by
    intro key rules
    rcases check_cases cfg s key rules c.now with ⟨fault, h⟩ | h
    · exact .inl (congrArg Prod.snd h)
    · exact .inr (congrArg Prod.snd h)
  obtain ⟨op, now⟩ := c
  cases op with
  | check key rules => exact (hcheck key rules).imp_right fun h => .inl ⟨key, rules, h⟩
  | enforce key rules => exact (hcheck key rules).imp_right fun h => .inl ⟨key, rules, h⟩
  | status key rules => exact .inl rfl
  | reset key => exact .inr (.inr ⟨key, rfl⟩)
  | probe => exact .inl rfl

theorem evictions_le_answer (cfg : LimiterSettings) (s : Slots ν) (c : Call ν) :
    s.evictions ≤ (s.answer cfg c).2.evictions := by
  rcases answer_cases cfg s c with h | ⟨key, rules, h⟩ | ⟨key, h⟩
  · exact Nat.le_of_eq (congrArg Slots.evictions h.symm)
  · rw [h]
    exact evictions_le_judgeAll _ _ _ _ _ _
  · rw [h]
    exact Nat.le_refl _

theorem size_answer_le (hcfg : cfg.fault? = none) (hsize : s.size ≤ cfg.config.maxTrackedKeys)
    (c : Call ν) :
    (s.answer cfg c).2.size ≤ cfg.config.maxTrackedKeys := by
  rcases answer_cases cfg s c with h | ⟨key, rules, h⟩ | ⟨key, h⟩
  · rwa [h]
  · rw [h]
    exact size_judgeAll_le hcfg hsize
  · rw [h]
    exact Nat.le_trans (Table.size_le_of_has fun _ => Table.has_of_has_filter) hsize

/-- A call that gives up nothing gives up nothing for any of its rules. -/
theorem callMeets_of_evictions (h : (s.answer cfg c).2.evictions = s.evictions) :
    s.CallMeets cfg (Quiet cfg c.now) c := by
  intro key rules hcheck hvalid
  obtain ⟨op, now⟩ := c
  have hslots : (s.answer cfg ⟨op, now⟩).2 = (s.judgeAll cfg key now countLimit rules).2 := by
    have hsnd : (s.check cfg key rules now).2 = (s.judgeAll cfg key now countLimit rules).2 := by
      unfold check
      rw [hvalid]
    cases op with
    | check key' rules' =>
      cases hcheck
      exact hsnd
    | enforce key' rules' =>
      cases hcheck
      exact hsnd
    | status key' rules' => cases hcheck
    | reset key' => cases hcheck
    | probe => cases hcheck
  rw [hslots] at h
  exact rulesMeet_of_evictions h

/-- A property that every request under some names keeps, if it meets the condition, a call about
these names keeps. -/
theorem answer_keeps (hc : c.op.Concerns key labels)
    (hN : ∀ label, labels label → N (cfg.storeKey key label))
    (hstep : ∀ s name a, N name → I s → P s name a → I (s.judge cfg.policy name a c.now).2)
    (h : I s) (hmeets : s.CallMeets cfg P c) :
    I (s.answer cfg c).2 := by
  obtain ⟨op, now⟩ := c
  have hcheck : ∀ rules, (∀ rule ∈ rules, labels rule.label) →
      (Rule.firstFault? rules = none → s.RulesMeet cfg key now P rules) →
      I (s.check cfg key rules now).2 := by
    intro rules hrules hmeets
    unfold check
    cases hvalid : Rule.firstFault? rules with
    | some fault => exact h
    | none =>
      exact judgeAll_keeps hstep (fun rule hrule => hN _ (hrules rule hrule)) h (hmeets hvalid)
  cases op with
  | check k rules =>
    obtain ⟨rfl, hrules⟩ := hc
    exact hcheck rules hrules (hmeets k rules rfl)
  | enforce k rules =>
    obtain ⟨rfl, hrules⟩ := hc
    exact hcheck rules hrules (hmeets k rules rfl)
  | status k rules => exact h
  | reset k => exact hc.elim
  | probe => exact hc.elim

/-- If every request under some names has one outcome in both slots and keeps a relation between
them, and every status is the same in both, a call about these names is answered alike. -/
theorem answer_alike {s' : Slots ν} (hc : c.op.Concerns key labels)
    (hN : ∀ label, labels label → N (cfg.storeKey key label))
    (hstep : ∀ s s' name a, N name → R s s' → P s name a →
      (s'.judge cfg.policy name a c.now).1 = (s.judge cfg.policy name a c.now).1 ∧
      R (s.judge cfg.policy name a c.now).2 (s'.judge cfg.policy name a c.now).2)
    (hstatus : ∀ name rule, N name → s'.status name rule c.now = s.status name rule c.now)
    (h : R s s') (hmeets : s.CallMeets cfg P c) :
    (s'.answer cfg c).1 = (s.answer cfg c).1 ∧ R (s.answer cfg c).2 (s'.answer cfg c).2 := by
  obtain ⟨op, now⟩ := c
  have hcheck : ∀ rules, (∀ rule ∈ rules, labels rule.label) →
      (Rule.firstFault? rules = none → s.RulesMeet cfg key now P rules) →
        (s'.check cfg key rules now).1 = (s.check cfg key rules now).1 ∧
          R (s.check cfg key rules now).2 (s'.check cfg key rules now).2 := by
    intro rules hrules hmeets
    unfold check
    cases hvalid : Rule.firstFault? rules with
    | some fault => exact ⟨rfl, h⟩
    | none =>
      obtain ⟨hfst, hsnd⟩ : (s'.judgeAll cfg key now countLimit rules).1 =
        (s.judgeAll cfg key now countLimit rules).1 ∧
          R (s.judgeAll cfg key now countLimit rules).2
            (s'.judgeAll cfg key now countLimit rules).2 :=
        judgeAll_alike hstep (fun rule hrule => hN _ (hrules rule hrule)) h (hmeets hvalid)
      exact ⟨congrArg Except.ok hfst, hsnd⟩
  cases op with
  | check k rules =>
    obtain ⟨rfl, hrules⟩ := hc
    obtain ⟨hfst, hsnd⟩ := hcheck rules hrules (hmeets k rules rfl)
    exact ⟨congrArg Operation.Result.verdict hfst, hsnd⟩
  | enforce k rules =>
    obtain ⟨rfl, hrules⟩ := hc
    obtain ⟨hfst, hsnd⟩ := hcheck rules hrules (hmeets k rules rfl)
    exact ⟨congrArg (fun v => Operation.Result.verdict (Except.bind v Verdict.toExcept)) hfst, hsnd⟩
  | status k rules =>
    obtain ⟨rfl, hrules⟩ := hc
    have hstatuses : s'.statuses cfg k rules now = s.statuses cfg k rules now :=
      List.map_congr_left fun rule hrule => hstatus _ rule (hN _ (hrules rule hrule))
    refine ⟨congrArg Operation.Result.report ?_, h⟩
    unfold report
    rw [hstatuses]
  | reset k => exact hc.elim
  | probe => exact hc.elim

end Slots

/-! ### A limiter is its slots -/

namespace Limiter

variable {ν : Type} [Amount ν] {cfg : LimiterSettings}

/-- How the limiter's own state answers at a clock reading. -/
abbrev answering (cfg : LimiterSettings) (clock : Moment) (r : Request ν) (s : State ν) :
    Reply r × State ν :=
  step cfg clock s r

theorem run_judgeAll (cfg : LimiterSettings) (clock : Moment) (key : String) (now : Moment)
    (rules : List (Rule ν)) (remaining : Nat) (s : State ν) (n : Nat) :
    ∃ counters,
      ((alone cfg).judgeAll key now remaining rules).run (answering cfg clock) s n =
        (some (s.slots.judgeAll cfg key now remaining rules).1,
          ⟨(s.slots.judgeAll cfg key now remaining rules).2, s.breaker, counters⟩, n) := by
  induction rules generalizing remaining s with
  | nil => exact ⟨_, rfl⟩
  | cons rule rest ih =>
    let x := s.slots.judgeRule cfg key rule now
    let judged : State ν := ⟨x.2, s.breaker,
      { s.counters with fallbackChecks := s.counters.fallbackChecks + 1 }⟩
    have hrun :
        ((alone cfg).judgeAll key now remaining (rule :: rest)).run (answering cfg clock) s n =
        (if x.1.allowed then (alone cfg).judgeAll key now (min remaining x.1.remaining) rest
          else (Program.ask Request.checkThrottled).bind fun _ =>
            .done ⟨false, 0, x.1.retryAfter.seconds⟩).run
            (answering cfg clock) judged n := rfl
    by_cases hallowed : x.1.allowed = true
    · obtain ⟨counters, hrest⟩ := ih (min remaining x.1.remaining) judged
      refine ⟨counters, ?_⟩
      rw [hrun, if_pos hallowed, Slots.judgeAll_of_allowed hallowed, hrest]
    · refine ⟨{ judged.counters with throttled := judged.counters.throttled + 1 }, ?_⟩
      rw [hrun, if_neg hallowed, Slots.judgeAll_of_denied hallowed]
      rfl

theorem run_check (cfg : LimiterSettings) (clock : Moment) (key : String) (rules : List (Rule ν))
    (s : State ν) (n : Nat) :
    ∃ counters, ((alone cfg).check key rules).run (answering cfg clock) s n =
      (some (s.slots.check cfg key rules clock).1,
        ⟨(s.slots.check cfg key rules clock).2, s.breaker, counters⟩, n) := by
  unfold Limiter.check Slots.check
  cases Rule.firstFault? rules with
  | some fault => exact ⟨s.counters, rfl⟩
  | none =>
    let started : State ν := { s with counters.totalChecks := s.counters.totalChecks + 1 }
    obtain ⟨counters, hrun⟩ := run_judgeAll cfg clock key clock rules countLimit started n
    exact ⟨counters, Program.run_bind_of_run hrun fun verdict => .done (Except.ok verdict)⟩

theorem run_localStatus (cfg : LimiterSettings) (clock : Moment) (key : String) (now : Moment)
    (rules : List (Rule ν)) (s : State ν) (n : Nat) :
    ((alone cfg).localStatus key now rules).run (answering cfg clock) s n =
      (some (s.slots.statuses cfg key rules now), s, n) := by
  induction rules with
  | nil => rfl
  | cons rule rest ih =>
    exact Program.run_bind_of_run ih fun more =>
      .done (s.slots.status (cfg.storeKey key rule.label) rule now :: more)

theorem run_status (cfg : LimiterSettings) (clock : Moment) (key : String) (rules : List (Rule ν))
    (s : State ν) (n : Nat) :
    ((alone cfg).status key rules).run (answering cfg clock) s n =
      (some (s.slots.report cfg key rules clock), s, n) := by
  unfold Limiter.status Slots.report
  cases Rule.firstFault? rules with
  | some fault => rfl
  | none =>
    exact Program.run_bind_of_run (run_localStatus cfg clock key clock rules s n) fun statuses =>
      .done (Except.ok (StatusReport.mk key statuses .here))

/-- A status read is answered from the slots, and changes nothing. -/
theorem serve_status (cfg : LimiterSettings) (s : State ν) (key : String) (rules : List (Rule ν))
    (now : Moment) :
    serve cfg s ⟨.status key rules, now⟩ =
      (some (.report (s.slots.report cfg key rules now)), s) := by
  have hrun : ((alone cfg).perform (.status key rules)).run (answering cfg now) s 0 =
      (some (.report (s.slots.report cfg key rules now)), s, 0) :=
    Program.run_bind_of_run (run_status cfg now key rules s 0) fun r =>
      .done (Operation.Result.report r)
  unfold serve
  rw [hrun]

/-- **A limiter alone is its slots.** Every call ends with what the slots answer, and leaves what
they become. -/
theorem serve_eq (cfg : LimiterSettings) (s : State ν) (c : Call ν) : ∃ counters,
    serve cfg s c = (some (s.slots.answer cfg c).1,
      ⟨(s.slots.answer cfg c).2, s.breaker, counters⟩) := by
  obtain ⟨op, now⟩ := c
  suffices hrun : ∃ counters, ((alone cfg).perform op).run (answering cfg now) s 0 =
      (some (s.slots.answer cfg ⟨op, now⟩).1,
        ⟨(s.slots.answer cfg ⟨op, now⟩).2, s.breaker, counters⟩, 0) by
    obtain ⟨counters, hrun⟩ := hrun
    refine ⟨counters, ?_⟩
    unfold serve
    rw [hrun]
  cases op with
  | check key rules =>
    obtain ⟨counters, hrun⟩ := run_check cfg now key rules s 0
    exact ⟨counters, Program.run_bind_of_run hrun fun v => .done (Operation.Result.verdict v)⟩
  | enforce key rules =>
    obtain ⟨counters, hrun⟩ := run_check cfg now key rules s 0
    have henforce : ((alone cfg).enforce key rules).run (answering cfg now) s 0 =
        (some ((s.slots.check cfg key rules now).1.bind Verdict.toExcept),
          ⟨(s.slots.check cfg key rules now).2, s.breaker, counters⟩, 0) := by
      refine (Program.run_bind_of_run hrun _).trans ?_
      cases (s.slots.check cfg key rules now).1 <;> rfl
    exact ⟨counters, Program.run_bind_of_run henforce fun v => .done (Operation.Result.verdict v)⟩
  | status key rules =>
    exact ⟨s.counters, Program.run_bind_of_run (run_status cfg now key rules s 0) fun r =>
      .done (Operation.Result.report r)⟩
  | reset key => exact ⟨s.counters, rfl⟩
  | probe => exact ⟨s.counters, rfl⟩

theorem serve_fst (cfg : LimiterSettings) (s : State ν) (c : Call ν) :
    (serve cfg s c).1 = some (s.slots.answer cfg c).1 := by
  obtain ⟨counters, h⟩ := serve_eq cfg s c
  rw [h]

theorem slots_serve (cfg : LimiterSettings) (s : State ν) (c : Call ν) :
    (serve cfg s c).2.slots = (s.slots.answer cfg c).2 := by
  obtain ⟨counters, h⟩ := serve_eq cfg s c
  rw [h]

theorem evictions_le_after (cfg : LimiterSettings) (s : State ν) (calls : List (Call ν)) :
    s.slots.evictions ≤ (after cfg s calls).slots.evictions := by
  induction calls generalizing s with
  | nil => exact Nat.le_refl _
  | cons c rest ih =>
    calc s.slots.evictions ≤ (s.slots.answer cfg c).2.evictions := s.slots.evictions_le_answer cfg c
      _ = (serve cfg s c).2.slots.evictions := by rw [slots_serve]
      _ ≤ (after cfg (serve cfg s c).2 rest).slots.evictions := ih _

/-- Calls that give up nothing give up nothing in the first of them, and nothing in the others. -/
theorem evictions_after_cons {s : State ν} {c : Call ν} {rest : List (Call ν)}
    (h : (after cfg s (c :: rest)).slots.evictions = s.slots.evictions) :
    (s.slots.answer cfg c).2.evictions = s.slots.evictions ∧
      (after cfg (serve cfg s c).2 rest).slots.evictions = (serve cfg s c).2.slots.evictions := by
  have hfirst := s.slots.evictions_le_answer cfg c
  have hrest : (serve cfg s c).2.slots.evictions ≤ s.slots.evictions :=
      h ▸ evictions_le_after cfg (serve cfg s c).2 rest
  have hserve : (serve cfg s c).2.slots.evictions = (s.slots.answer cfg c).2.evictions := by
    rw [slots_serve]
  have heq : (s.slots.answer cfg c).2.evictions = s.slots.evictions := by omega
  exact ⟨heq, h.trans (heq.symm.trans hserve.symm)⟩

theorem size_after_le (hcfg : cfg.fault? = none) {s : State ν}
    (hsize : s.slots.size ≤ cfg.config.maxTrackedKeys) (calls : List (Call ν)) :
    (after cfg s calls).slots.size ≤ cfg.config.maxTrackedKeys := by
  induction calls generalizing s with
  | nil => exact hsize
  | cons c rest ih =>
    apply ih
    rw [slots_serve]
    exact Slots.size_answer_le hcfg hsize c

end Limiter

end GuardedWrites

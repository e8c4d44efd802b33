import GuardedWrites.Proofs.Rate.WithoutRemote
import GuardedWrites.Proofs.Rate.Naming
import GuardedWrites.Proofs.Rate.Tokens

/-!
# What a status foretells

A status read changes nothing, and yet says what the next request at the same moment will be told:
by one rule, and by all the rules of a check, as long as each has a slot of its own and none of them
is given up. Tokens are exact here.

* `RuleStatus.Foretells` — a status and the outcome of the request; `RuleState.foretells` says so
  for one rule;
* `Verdict.foreseen` — the verdict that the statuses of several rules foretell;
* `Slots.judgeAll_fst` — a check comes to this verdict;
* `Limiter.status_foretells_check` — so a check can be read off the status before it.
-/

namespace GuardedWrites

/-- A status says what the next request will be told. -/
structure RuleStatus.Foretells (st : RuleStatus) (o : Outcome) : Prop where
  allowed : o.allowed = true ↔ 0 < st.remaining
  left : o.allowed = true → o.remaining = st.remaining - 1
  wait : ¬ o.allowed = true → o.retryAfter.seconds = st.retryAfterSecs

/-! ### One rule -/

theorem Window.foretells (w : Window) (l : WindowLimit) (label : String) (now : Moment) :
    (w.status l label now).Foretells (w.hit l now).1 := by
  by_cases hlt : (w.live l.window now).length < l.max
  · have hleft : 0 < (w.status l label now).remaining := Nat.sub_pos_of_lt hlt
    rw [Window.hit_of_lt hlt]
    exact ⟨⟨fun _ => hleft, fun _ => rfl⟩, fun _ => rfl, fun h => absurd rfl h⟩
  · have hnone : (w.status l label now).remaining = 0 := Nat.sub_eq_zero_of_le (Nat.not_lt.1 hlt)
    have hwait : (w.status l label now).retryAfterSecs =
        (wait (w.live l.window now).head? l.window now).seconds := by
      show (if 0 < (w.status l label now).remaining then _ else _ : Span).seconds = _
      rw [hnone]
      rfl
    rw [Window.hit_of_not_lt hlt]
    refine ⟨⟨nofun, fun h => ?_⟩, nofun, fun _ => hwait.symm⟩
    rw [hnone] at h
    exact absurd h (Nat.lt_irrefl 0)

theorem Bucket.foretells (b : Bucket Rat) (l : BucketLimit Rat) (label : String) (now : Moment) :
    (b.status l label now).Foretells (b.take l now).1 := by
  have hremaining : (b.status l label now).remaining = requests (b.refilled l now) := rfl
  by_cases hlt : enough (b.refilled l now) = true
  · have htake : b.take l now = (.allow (requests (spend (b.refilled l now))),
        ⟨spend (b.refilled l now), b.lastRefill.latest now⟩) := if_pos hlt
    rw [htake]
    refine ⟨⟨fun _ => enough_iff.1 hlt, fun _ => rfl⟩, fun _ => ?_, fun h => absurd rfl h⟩
    exact requests_spend _
  · have htake : b.take l now = (.deny (wait (b.refilled l now) l), b) := if_neg hlt
    have hwait : (b.status l label now).retryAfterSecs = (wait (b.refilled l now) l).seconds :=
      congrArg Span.seconds (if_neg fun h => hlt (enough_iff.2 h))
    rw [htake]
    exact ⟨⟨nofun, fun h => absurd (enough_iff.2 h) hlt⟩, nofun, fun _ => hwait.symm⟩

theorem RuleState.foretells (s : RuleState Rat) (a : Algorithm Rat) (label : String)
    (now : Moment) :
    (s.status a label now).Foretells (s.judge a now).1 := by
  cases a with
  | window l =>
    cases s with
    | window w => exact w.foretells l label now
    | bucket b => exact Window.empty.foretells l label now
  | bucket l =>
    cases s with
    | window w => exact (Bucket.full l now).foretells l label now
    | bucket b => exact b.foretells l label now

/-- A status never reports more left than the limit. -/
theorem RuleState.remaining_le (s : RuleState Rat) (a : Algorithm Rat) (label : String)
    (now : Moment) :
    (s.status a label now).remaining ≤ a.limit := by
  cases a with
  | window l =>
    cases s with
    | window w => exact Nat.sub_le _ _
    | bucket b => exact Nat.sub_le _ _
  | bucket l =>
    cases s with
    | window w => exact (Bucket.full l now).requests_refilled_le l now
    | bucket b => exact b.requests_refilled_le l now

theorem RuleState.label_status (s : RuleState Rat) (a : Algorithm Rat) (label : String)
    (now : Moment) :
    (s.status a label now).label = label := by
  cases a <;> cases s <;> rfl

/-! ### Several rules -/

/-- The verdict that statuses foretell: the first one with nothing left denies. -/
def Verdict.foreseen : (remaining : Nat) → List RuleStatus → Verdict
  | remaining, [] => ⟨true, remaining, 0⟩
  | remaining, st :: rest =>
    if 0 < st.remaining then foreseen (min remaining (st.remaining - 1)) rest
      else ⟨false, 0, st.retryAfterSecs⟩

namespace Verdict

variable {remaining : Nat} {sts : List RuleStatus}

theorem foreseen_allowed_iff :
    (foreseen remaining sts).allowed = true ↔ ∀ st ∈ sts, 0 < st.remaining := by
  induction sts generalizing remaining with
  | nil => exact ⟨fun _ => nofun, fun _ => rfl⟩
  | cons st rest ih =>
    unfold foreseen
    split
    · rename_i hleft
      rw [ih, List.forall_mem_cons]
      exact ⟨fun h => ⟨hleft, h⟩, fun h => h.2⟩
    · rename_i hnone
      exact ⟨nofun, fun h => absurd (h st (.head _)) hnone⟩

theorem foreseen_remaining (h : ∀ st ∈ sts, 0 < st.remaining) :
    (foreseen remaining sts).remaining =
      (sts.map fun st => st.remaining - 1).foldl min remaining := by
  induction sts generalizing remaining with
  | nil => rfl
  | cons st rest ih =>
    obtain ⟨hleft, hrest⟩ := List.forall_mem_cons.1 h
    rw [foreseen, if_pos hleft, ih hrest]
    rfl

/-- The least of some numbers under a bound, and the bound if there are none. -/
theorem foldl_min_eq {bound : Nat} {ns : List Nat} (h : ∀ n ∈ ns, n ≤ bound) :
    ns.foldl min bound = (ns.min?).getD bound := by
  cases ns with
  | nil => rfl
  | cons n rest =>
    rw [List.min?_cons', List.foldl_cons, Nat.min_eq_right (h n (.head _))]
    rfl

theorem foreseen_retryAfterSecs (h : ¬ (foreseen remaining sts).allowed = true) :
    ∃ st, sts.find? (fun st => st.remaining = 0) = some st ∧
      (foreseen remaining sts).retryAfterSecs = st.retryAfterSecs := by
  induction sts generalizing remaining with
  | nil => exact absurd rfl h
  | cons st rest ih =>
    unfold foreseen at h ⊢
    by_cases hleft : 0 < st.remaining
    · rw [if_pos hleft] at h ⊢
      rw [List.find?_cons_of_neg (by simpa using Nat.ne_of_gt hleft)]
      exact ih h
    · rw [if_neg hleft]
      exact ⟨st, List.find?_cons_of_pos (by simpa using hleft), rfl⟩

end Verdict

namespace Slots

variable {cfg : LimiterSettings} {s : Slots Rat} {key : String} {now : Moment} {rule : Rule Rat}
variable {rules : List (Rule Rat)}
variable {remaining : Nat}

theorem foretells_judgeRule (h : (s.judgeRule cfg key rule now).2.evictions = s.evictions) :
    (s.status (cfg.storeKey key rule.label) rule now).Foretells
      (s.judgeRule cfg key rule now).1 := by
  rw [status_eq, judge_fst h]
  exact RuleState.foretells _ _ _ _

/-- A request under another label changes no status. -/
theorem status_judgeRule (h : (s.judgeRule cfg key rule now).2.evictions = s.evictions)
    {other : Rule Rat} (hne : rule.label ≠ other.label) :
    (s.judgeRule cfg key rule now).2.status (cfg.storeKey key other.label) other now =
      s.status (cfg.storeKey key other.label) other now := by
  have hname : cfg.storeKey key rule.label ≠ cfg.storeKey key other.label :=
    fun heq => hne (LimiterSettings.label_eq_of_storeKey_eq heq)
  have halive : (s.judgeRule cfg key rule now).2.alive? (cfg.storeKey key other.label) now =
      s.alive? (cfg.storeKey key other.label) now := by
    rw [alive?_judge h, if_neg hname]
  rw [status_eq, status_eq, slotFor_congr halive]

/-- **A check comes to the verdict that the statuses foretell**, if its rules have different labels
and nothing is given up for them. -/
theorem judgeAll_fst (hlabels : (rules.map Rule.label).Nodup)
    (hquiet : s.RulesMeet cfg key now (Quiet cfg now) rules) :
    (s.judgeAll cfg key now remaining rules).1 =
      Verdict.foreseen remaining (s.statuses cfg key rules now) := by
  induction rules generalizing s remaining with
  | nil => rfl
  | cons rule rest ih =>
    obtain ⟨hnew, hrest⟩ := List.nodup_cons.1 hlabels
    obtain ⟨hfirst, hlater⟩ := hquiet
    have hforetold := foretells_judgeRule hfirst
    have hstatuses : (s.judgeRule cfg key rule now).2.statuses cfg key rest now =
        s.statuses cfg key rest now := by
      refine List.map_congr_left fun other hother => status_judgeRule hfirst fun heq => hnew ?_
      rw [heq]
      exact List.mem_map_of_mem hother
    rw [statuses, List.map_cons, Verdict.foreseen]
    by_cases hallowed : (s.judgeRule cfg key rule now).1.allowed = true
    · rw [judgeAll_of_allowed hallowed, ih hrest (hlater hallowed), hstatuses,
        if_pos (hforetold.allowed.1 hallowed), hforetold.left hallowed]
      rfl
    · rw [judgeAll_of_denied hallowed, if_neg (mt hforetold.allowed.2 hallowed),
        hforetold.wait hallowed]

theorem remaining_statuses_le {st : RuleStatus} (h : st ∈ s.statuses cfg key rules now) :
    ∃ rule ∈ rules, st.remaining ≤ rule.limit := by
  obtain ⟨rule, hrule, rfl⟩ := List.mem_map.1 h
  refine ⟨rule, hrule, ?_⟩
  rw [status_eq]
  exact RuleState.remaining_le _ _ _ _

theorem label_statuses (cfg : LimiterSettings) (s : Slots Rat) (key : String)
    (rules : List (Rule Rat)) (now : Moment) :
    (s.statuses cfg key rules now).map RuleStatus.label = rules.map Rule.label := by
  rw [statuses, List.map_map]
  refine List.map_congr_left fun rule _ => ?_
  show (s.status (cfg.storeKey key rule.label) rule now).label = rule.label
  rw [status_eq]
  exact RuleState.label_status _ _ _ _

end Slots

namespace Limiter

/-- **A status foretells a check.** A limiter that has seen anything reads the status of rules that
can be enforced and have different labels, and then checks them at the same moment. If nothing is
given up for them, the check is allowed exactly if every status has something left. What it leaves
is the least that the statuses have left, less the one request, and a denied check waits as long as
the first status with nothing left says. -/
theorem status_foretells_check (cfg : LimiterSettings) (s : State Rat) (key : String)
    (rules : List (Rule Rat)) (now : Moment) (hvalid : Rule.firstFault? rules = none)
    (hlabels : (rules.map Rule.label).Nodup) (hlimits : ∀ rule ∈ rules, rule.limit ≤ countLimit)
    (hnone : (serve cfg s ⟨.check key rules, now⟩).2.slots.evictions = s.slots.evictions) :
    ∃ report verdict,
      serve cfg s ⟨.status key rules, now⟩ = (some (.report (.ok report)), s) ∧
      (serve cfg s ⟨.check key rules, now⟩).1 = some (.verdict (.ok verdict)) ∧
      report.rules.map RuleStatus.label = rules.map Rule.label ∧
      (verdict.allowed = true ↔ ∀ st ∈ report.rules, 0 < st.remaining) ∧
      (verdict.allowed = true →
        verdict.remaining = ((report.rules.map fun st => st.remaining - 1).min?).getD countLimit) ∧
      (verdict.allowed = false →
        ∃ st, report.rules.find? (fun st => st.remaining = 0) = some st ∧
          verdict.retryAfterSecs = st.retryAfterSecs) := by
  let sts := s.slots.statuses cfg key rules now
  have hreport : s.slots.report cfg key rules now = .ok ⟨key, sts, .here⟩ := by
    unfold Slots.report
    rw [hvalid]
  have hcheck : s.slots.check cfg key rules now =
      (.ok (s.slots.judgeAll cfg key now countLimit rules).1,
        (s.slots.judgeAll cfg key now countLimit rules).2) := by
    unfold Slots.check
    rw [hvalid]
  rw [slots_serve] at hnone
  have hquiet := Slots.callMeets_of_evictions hnone key rules rfl hvalid
  have hverdict : (s.slots.judgeAll cfg key now countLimit rules).1 =
      Verdict.foreseen countLimit sts :=
    Slots.judgeAll_fst hlabels hquiet
  refine ⟨⟨key, sts, .here⟩, Verdict.foreseen countLimit sts, ?_, ?_,
    Slots.label_statuses _ _ _ _ _,
    Verdict.foreseen_allowed_iff, fun hallowed => ?_, fun hdenied => ?_⟩
  · rw [serve_status, hreport]
  · rw [serve_fst]
    show some (Operation.Result.verdict (s.slots.check cfg key rules now).1) = _
    rw [hcheck, hverdict]
  · rw [Verdict.foreseen_remaining (Verdict.foreseen_allowed_iff.1 hallowed)]
    refine Verdict.foldl_min_eq fun n hn => ?_
    obtain ⟨st, hst, rfl⟩ := List.mem_map.1 hn
    obtain ⟨rule, hrule, hle⟩ := Slots.remaining_statuses_le hst
    have := hlimits rule hrule
    omega
  · exact Verdict.foreseen_retryAfterSecs (by rw [hdenied]; exact nofun)

/-- Two requests a minute, and tokens for two at once with one more every ten seconds. -/
def twoRules : List (Rule Rat) :=
  [⟨some "minute", .window ⟨2, 60⟩⟩, ⟨some "burst", .bucket ⟨2, 1 / 10⟩⟩]

/-- Both requests of the minute are spent, and the clock has stepped back in between. -/
def spent : State Rat :=
  after usual .initial [⟨.check "ann" twoRules, .ofMillis 5000⟩,
    ⟨.check "ann" twoRules, .ofMillis 3000⟩]

theorem status_foretells_check_spent :
    Rule.firstFault? twoRules = none ∧ (twoRules.map Rule.label).Nodup ∧
    (∀ rule ∈ twoRules, rule.limit ≤ countLimit) ∧
      (serve usual spent ⟨.check "ann" twoRules, .ofMillis 9000⟩).2.slots.evictions =
        spent.slots.evictions ∧
      ∃ report verdict,
        serve usual spent ⟨.status "ann" twoRules, .ofMillis 9000⟩ =
          (some (.report (.ok report)), spent) ∧
        (serve usual spent ⟨.check "ann" twoRules, .ofMillis 9000⟩).1 =
          some (.verdict (.ok verdict)) ∧
        verdict.allowed = false ∧
        ∃ st, report.rules.find? (fun st => st.remaining = 0) = some st ∧
          verdict.retryAfterSecs = st.retryAfterSecs := by
  have hvalid : Rule.firstFault? twoRules = none := by decide +kernel
  have hlabels : (twoRules.map Rule.label).Nodup := by decide +kernel
  have hlimits : ∀ rule ∈ twoRules, rule.limit ≤ countLimit := by decide +kernel
  have hnone : (serve usual spent ⟨.check "ann" twoRules, .ofMillis 9000⟩).2.slots.evictions =
      spent.slots.evictions := by
    decide +kernel
  obtain ⟨report, verdict, hreport, hverdict, -, -, -, hdenied⟩ :=
    status_foretells_check usual spent "ann" twoRules (.ofMillis 9000) hvalid hlabels hlimits hnone
  have hresult :
      (serve usual spent ⟨.check "ann" twoRules, .ofMillis 9000⟩).1.bind Operation.Result.allowed? =
      some false := by
    decide +kernel
  rw [hverdict] at hresult
  have hallowed : verdict.allowed = false := Option.some.inj hresult
  exact ⟨hvalid, hlabels, hlimits, hnone, report, verdict, hreport, hverdict, hallowed,
    hdenied hallowed⟩

end Limiter

end GuardedWrites

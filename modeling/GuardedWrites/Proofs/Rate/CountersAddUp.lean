import GuardedWrites.Proofs.Rate.FailureReports
import GuardedWrites.Rate.Exact

/-!
# The counters add up

What the counters of some limiters say, told by what the operations have done: the checks that have
begun and those that have returned, the rules that were judged, and the calls of the remote stores
that came to nothing.

* `Fleet.Evaluation`, `Fleet.Evaluated` — the rules that an operation has had judged, cut out of its
  deeds;
* `Fleet.endsBy_judgeAll`, `Fleet.endsBy_evaluate` — one verdict ends a check, one decision ends the
  judging of a rule;
* `Fleet.counters_add_up` — the accounts of a whole run.
-/

namespace GuardedWrites

namespace Fleet

open Limiter (Operation)

variable {ν ρ ω : Type}

/-- The evaluation of a rule that has produced an outcome: the rule, what was done for it, and the
outcome. -/
structure Evaluation (ν : Type) where
  rule : Rule ν
  deeds : List (Deed (service ν))
  outcome : Outcome

/-- It was a remote store that judged the rule. -/
def Evaluation.afar (e : Evaluation ν) : Bool := e.deeds.any judgedAfar

section Operations

variable [Amount ν]

/-- An evaluation that is one of a limiter, from its first step to its outcome. -/
def Evaluation.Of (cfg : LimiterSettings) (reach : Bool) (j : Nat) (key : String) (now : Moment)
    (e : Evaluation ν) : Prop :=
  ((limiter cfg reach j).evaluate key e.rule now).Takes e.deeds (.done e.outcome)

/-- What a check does about its rules, one after the other, cut into the evaluations that have
produced an outcome. -/
inductive Course (cfg : LimiterSettings) (reach : Bool) (j : Nat) (key : String) (now : Moment) :
    List (Rule ν) → List (Deed (service ν)) → List (Evaluation ν) → Prop
  /-- The evaluation of the next rule has not ended. -/
  | underWay {rule : Rule ν} {rest : List (Rule ν)} {ds : List (Deed (service ν))}
      {q : Program (service ν) Outcome}
      (h : ((limiter cfg reach j).evaluate key rule now).Takes ds q) (hq : q.isDone = false) :
      Course cfg reach j key now (rule :: rest) ds []
  /-- The next rule admits the request, and the check goes on. -/
  | admitted {e : Evaluation ν} {rest : List (Rule ν)} {ds : List (Deed (service ν))}
      {es : List (Evaluation ν)} (h : e.Of cfg reach j key now) (ha : e.outcome.allowed = true)
      (hrest : Course cfg reach j key now rest ds es) :
      Course cfg reach j key now (e.rule :: rest) (e.deeds ++ ds) (e :: es)
  /-- The next rule denies it, and that is the verdict. -/
  | denied {e : Evaluation ν} {rest : List (Rule ν)} {ds : List (Deed (service ν))}
      (h : e.Of cfg reach j key now) (ha : e.outcome.allowed = false)
      (hds : ds = [] ∨ ds = [.call ⟨j, .own .checkThrottled⟩ ()]) :
      Course cfg reach j key now (e.rule :: rest) (e.deeds ++ ds) [e]
  /-- No rule is left, and that is the verdict. -/
  | passed {ds : List (Deed (service ν))}
      (hds : ds = [] ∨ ds = [.call ⟨j, .own .checkAllowed⟩ ()]) :
      Course cfg reach j key now [] ds []

/-- The evaluations that have produced an outcome among the deeds of an operation. -/
inductive Evaluated (cfg : LimiterSettings) (reach : Bool) (j : Nat) :
    Operation ν → List (Deed (service ν)) → List (Evaluation ν) → Prop
  /-- It judges no rules. -/
  | none {op : Operation ν} {ds : List (Deed (service ν))} (h : isCheck op = false) :
      Evaluated cfg reach j op ds []
  /-- It is a check that has not read the clock yet. -/
  | opening {op : Operation ν} {ds : List (Deed (service ν))} (h : isCheck op = true)
      (hds : ds = [] ∨ ds = [.call ⟨j, .own .checkStarted⟩ ()]) :
      Evaluated cfg reach j op ds []
  /-- It is a check at its rules. -/
  | course {op : Operation ν} {key : String} {rules : List (Rule ν)} {t : Moment}
      {ds : List (Deed (service ν))}
      {es : List (Evaluation ν)} (h : isCheck op = true) (hop : op.check? = some (key, rules))
      (hc : Course cfg reach j key t rules ds es) :
      Evaluated cfg reach j op (.call ⟨j, .own .checkStarted⟩ () :: .call ⟨j, .own .now⟩ t :: ds) es

end Operations

/-! ### What an operation adds to the counts -/

section Counts

variable [Amount ν] {cfg : LimiterSettings} {reach : Bool} {j : Nat} {op : Operation ν}
variable {key : String} {now : Moment}
variable {rule : Rule ν} {rules : List (Rule ν)} {remaining : Nat} {kind : Request ν → Bool}
variable {ds : List (Deed (service ν))} {es : List (Evaluation ν)}
variable {q : Program (service ν) Operation.Result}
variable {p : Program (service ν) Verdict}

section Parts

omit [Amount ν]

variable {α : Type} {x : Option ((RateStore.service ν).Via (Program (service ν)))}
variable {r : Limiter.Request ν}

theorem endsBy_own {n : Nat} (h : (kind ⟨j, .own r⟩).toNat = n) :
    ((limiter cfg reach j).own r).EndsBy kind n :=
  h ▸ Program.endsBy_ask (S := service ν) ⟨j, .own r⟩

/-- A program that obeys without a kind of step never takes such a step. -/
theorem endsBy_of_obeys {Q : Memo → α → Prop} {p : Program (service ν) α}
    (hp : Program.Obeys (conduct fun r => kind r = false) Q .start p) : p.EndsBy kind 0 :=
  hp.endsBy fun _ _ _ _ h => h.2.1

theorem endsBy_remoteNow : ((limiter cfg reach j : Limiter ν _).remoteNow).EndsBy decides 0 :=
  endsBy_of_obeys (obeys_remoteNow (fun _ h => (eq_false_of_routine h).2.2) rfl)

theorem remoteNow_cases (h : (limiter cfg reach j).remoteNow.Takes ds (.done x)) :
    x = none ∨ x = some (remoteStore j) := by
  obtain ⟨m, -, -, hx⟩ := (obeys_remoteNow (P := fun _ => True) (m := .start)
    (fun _ _ => trivial) rfl).takes h
  exact hx

theorem endsBy_bounded (r : RateStore.Request ν) :
    ((limiter cfg reach j).bounded (remoteStore j r)).EndsBy decides 0 :=
  endsBy_of_obeys (obeys_bounded (fun _ h => (eq_false_of_routine h).2.2) rfl)

/-- The last step of a check, after which it only returns its verdict. -/
theorem note_cases {f : Limiter.Reply r → Program (service ν) α} {q : Program (service ν) α}
    (h : ((Program.ask (S := service ν) ⟨j, .own r⟩).bind f).Takes ds q)
    (hf : ∀ x, (f x).isDone = true) :
    ds = [] ∨ ∃ x, ds = [.call ⟨j, .own r⟩ x] := by
  obtain ⟨q', h', -⟩ := h.of_returning hf
  rcases Program.Takes.of_ask h' with ⟨hds, -⟩ | ⟨x, hds, -⟩
  · exact .inl hds
  · exact .inr ⟨x, hds⟩

end Parts

/-- One decision, here or after a good answer, ends the judging of a rule. -/
theorem endsBy_evaluate : ((limiter cfg reach j).evaluate key rule now).EndsBy decides 1 := by
  unfold Limiter.evaluate
  refine Program.EndsBy.bind endsBy_remoteNow fun ds x hx => ?_
  rcases remoteNow_cases hx with rfl | rfl
  · exact endsBy_own rfl
  refine Program.EndsBy.bind (endsBy_bounded _) fun ds x _ => ?_
  cases x with
  | ok o =>
    have htold : ((limiter cfg reach j : Limiter ν _).own .remoteAnswered).EndsBy decides 1 :=
        endsBy_own rfl
    exact htold.returning fun _ => rfl
  | error e =>
    have htold : ((limiter cfg reach j : Limiter ν _).own .remoteFailed).EndsBy decides 0 :=
        endsBy_own rfl
    exact htold.bind fun _ _ _ => endsBy_own rfl

/-- The judging of a rule is not the verdict. -/
theorem endsBy_evaluate_verdicts :
    ((limiter cfg reach j).evaluate key rule now).EndsBy verdicts 0 :=
  endsBy_of_obeys (obeys_evaluate (fun _ h => (eq_false_of_routine h).2.1)
    (fun _ h => (eq_false_of_decides h).2) rfl)

/-- One verdict ends the judging of all rules. -/
theorem endsBy_judgeAll :
    ((limiter cfg reach j).judgeAll key now remaining rules).EndsBy verdicts 1 := by
  induction rules generalizing remaining with
  | nil =>
    have hverdict : ((limiter cfg reach j : Limiter ν _).own .checkAllowed).EndsBy verdicts 1 :=
        endsBy_own rfl
    exact hverdict.returning fun _ => rfl
  | cons rule rest ih =>
    unfold Limiter.judgeAll
    refine Program.EndsBy.bind endsBy_evaluate_verdicts fun ds o _ => ?_
    split
    · exact ih
    · have hverdict : ((limiter cfg reach j : Limiter ν _).own .checkThrottled).EndsBy verdicts 1 :=
          endsBy_own rfl
      exact hverdict.returning fun _ => rfl

/-- The judging of rules begins no check. -/
theorem endsBy_judgeAll_starts :
    ((limiter cfg reach j).judgeAll key now remaining rules).EndsBy starts 0 :=
  endsBy_of_obeys (obeys_judgeAll (fun _ h => (eq_false_of_routine h).1)
    (fun _ h => (eq_false_of_decides h).1)
    (fun _ h => starts_of_verdicts h) rfl)

/-- The path of a check of valid rules: its beginning, the clock, and then the rules. -/
theorem check_cases (h : isCheck op = true) (ht : ((limiter cfg reach j).perform op).Takes ds q) :
    (ds = [] ∨ ds = [.call ⟨j, .own .checkStarted⟩ ()]) ∧ q.isDone = false ∨
      ∃ key rules t ds' q', op.check? = some (key, rules) ∧
        ds = .call ⟨j, .own .checkStarted⟩ () :: .call ⟨j, .own .now⟩ t :: ds' ∧
        ((limiter cfg reach j).judgeAll key t countLimit rules).Takes ds' q' ∧
        q'.isDone = q.isDone := by
  obtain ⟨key, rules, hop, hvalid⟩ := isCheck_iff.1 h
  obtain ⟨f, hf, hperform⟩ := perform_check (limiter cfg reach j) hop
  rw [hperform] at ht
  obtain ⟨q₁, ht, hdone⟩ := ht.of_returning hf
  rw [← hdone]
  rw [Limiter.check, hvalid] at ht
  cases ht with
  | refl => exact .inl ⟨.inl rfl, rfl⟩
  | call ht =>
    cases ht with
    | refl => exact .inl ⟨.inr rfl, rfl⟩
    | @call _ _ t ds' _ ht =>
      have ht : (((limiter cfg reach j).judgeAll key t countLimit rules).bind fun v =>
        .done (Except.ok (ε := Failure) v)).Takes ds' q₁ := ht
      obtain ⟨q₂, ht, hdone⟩ := ht.of_returning fun _ => rfl
      exact .inr ⟨key, rules, t, _, q₂, hop, rfl, ht, hdone⟩

/-- A check of valid rules is counted when it begins. -/
theorem countP_starts (ht : ((limiter cfg reach j).perform op).Takes ds q) :
    ds.countP (Deed.calls starts) = if isCheck op = true ∧ ds ≠ [] then 1 else 0 := by
  cases h : isCheck op with
  | false =>
    exact (obeys_perform_of_not_isCheck h).countP_eq_zero (fun _ _ _ _ hm =>
      (eq_false_of_plain hm.2.1).1) ht
  | true =>
    rcases check_cases h ht with ⟨rfl | rfl, -⟩ | ⟨key, rules, t, ds', q', -, rfl, hrules, -⟩
    · rfl
    · rfl
    · rw [List.countP_cons, List.countP_cons, endsBy_judgeAll_starts hrules, ite_self]
      rfl

/-- It is counted again, as allowed or as throttled, when it returns. -/
theorem countP_verdicts (ht : ((limiter cfg reach j).perform op).Takes ds q) :
    ds.countP (Deed.calls verdicts) = if isCheck op = true ∧ q.isDone = true then 1 else 0 := by
  cases h : isCheck op with
  | false =>
    exact (obeys_perform_of_not_isCheck h).countP_eq_zero (fun _ _ _ _ hm =>
      (eq_false_of_plain hm.2.1).2.1) ht
  | true =>
    rcases check_cases h ht with ⟨rfl | rfl, hq⟩ | ⟨key, rules, t, ds', q', -, rfl, hrules, hdone⟩
    · simp [hq]
    · rw [hq]
      rfl
    · rw [List.countP_cons, List.countP_cons, endsBy_judgeAll hrules, hdone]
      cases q.isDone <;> rfl

/-- As long as a rule is being judged, nothing has judged it here. -/
theorem judges_of_underWay {q : Program (service ν) Outcome}
    (h : ((limiter cfg reach j).evaluate key rule now).Takes ds q) (hq : q.isDone = false) :
    ds.countP (Deed.calls judges) = 0 := by
  have hnone : ds.countP (Deed.calls decides) = 0 := by rw [endsBy_evaluate h, hq]; rfl
  rw [List.countP_eq_zero] at hnone ⊢
  intro d hd hjudges
  refine hnone d hd ?_
  cases d with
  | wait => cases hjudges
  | call r x =>
    have hjudges : judges r = true := hjudges
    simp [Deed.calls, decides, hjudges]

/-- A rule that has an outcome was judged once: here, or by a remote store. -/
theorem judged_once {o : Outcome}
    (h : ((limiter cfg reach j).evaluate key rule now).Takes ds (.done o)) :
    ds.countP (Deed.calls judges) + (ds.any judgedAfar).toNat = 1 := by
  obtain ⟨m', haccepts, hm'⟩ :=
    (obeys_evaluate (P := fun _ => True) (m := .start) (fun _ _ => trivial)
    (fun _ _ => trivial) rfl).takes h
  have hm' : JudgedOnce .start m' := hm'
  rw [memo_of_accepts haccepts, foldl_next] at hm'
  simp only [JudgedOnce, Memo.start, Bool.or_false, Nat.zero_add, Memo.mk.injEq] at hm'
  rcases hm' with ⟨-, hafar, hhere⟩ | ⟨-, hafar, hhere⟩
  · rw [hafar, hhere]
    rfl
  · rw [hafar, hhere]
    rfl

/-- The deeds of a check at its rules can be cut into evaluations. -/
theorem exists_course (h : ((limiter cfg reach j).judgeAll key now remaining rules).Takes ds p) :
    ∃ es, Course cfg reach j key now rules ds es := by
  induction rules generalizing remaining ds with
  | nil =>
    rcases note_cases h fun _ => rfl with rfl | ⟨x, rfl⟩
    · exact ⟨[], .passed (.inl rfl)⟩
    · exact ⟨[], .passed (.inr rfl)⟩
  | cons rule rest ih =>
    rcases h.bind_cases with ⟨q', h', hq', -⟩ | ⟨ds₁, o, ds₂, rfl, h₁, h₂⟩
    · exact ⟨[], .underWay h' hq'⟩
    have hof : (⟨rule, ds₁, o⟩ : Evaluation ν).Of cfg reach j key now := h₁
    cases ho : o.allowed with
    | true =>
      simp only [ho, if_true] at h₂
      obtain ⟨es, hes⟩ := ih h₂
      exact ⟨⟨rule, ds₁, o⟩ :: es, .admitted hof ho hes⟩
    | false =>
      simp only [ho, Bool.false_eq_true, if_false] at h₂
      rcases note_cases h₂ fun _ => rfl with hds | ⟨x, hds⟩
      · exact ⟨_, .denied hof ho (.inl hds)⟩
      · exact ⟨_, .denied hof ho (.inr hds)⟩

theorem balance_cons {e : Evaluation ν} (he : e.Of cfg reach j key now)
    (hrest : ds.countP (Deed.calls judges) + es.countP Evaluation.afar = es.length) :
    (e.deeds ++ ds).countP (Deed.calls judges) + (e :: es).countP Evaluation.afar =
      (e :: es).length := by
  have honce : e.deeds.countP (Deed.calls judges) + e.afar.toNat = 1 := judged_once he
  have hafar : (if e.afar = true then 1 else 0) = e.afar.toNat := by cases e.afar <;> rfl
  rw [List.countP_append, List.countP_cons, hafar, List.length_cons]
  omega

/-- However the deeds of an operation are cut, the evaluations that were not judged by a remote
store are the rules that were judged here. -/
theorem Course.balance (h : Course cfg reach j key now rules ds es) :
    ds.countP (Deed.calls judges) + es.countP Evaluation.afar = es.length := by
  induction h with
  | underWay h hq =>
    rw [judges_of_underWay h hq]
    rfl
  | admitted h ha hrest ih => exact balance_cons h ih
  | denied h ha hds =>
    refine balance_cons h ?_
    rcases hds with rfl | rfl <;> rfl
  | passed hds => rcases hds with rfl | rfl <;> rfl

theorem exists_evaluated (ht : ((limiter cfg reach j).perform op).Takes ds q) :
    ∃ es, Evaluated cfg reach j op ds es := by
  cases h : isCheck op with
  | false => exact ⟨[], .none h⟩
  | true =>
    rcases check_cases h ht with ⟨hds, -⟩ | ⟨key, rules, t, ds', q', hop, rfl, hrules, -⟩
    · exact ⟨[], .opening h hds⟩
    · obtain ⟨es, hes⟩ := exists_course hrules
      exact ⟨es, .course h hop hes⟩

theorem Evaluated.balance (h : Evaluated cfg reach j op ds es)
    (ht : ((limiter cfg reach j).perform op).Takes ds q) :
    ds.countP (Deed.calls judges) + es.countP Evaluation.afar = es.length := by
  cases h with
  | none h =>
    rw [(obeys_perform_of_not_isCheck h).countP_eq_zero
      (fun _ _ _ _ hm => (eq_false_of_plain hm.2.1).2.2) ht]
    rfl
  | opening h hds => rcases hds with rfl | rfl <;> rfl
  | course h hop hc => exact hc.balance

end Counts

/-! ### Whole runs -/

section Runs

variable [Amount ν] {cfg : Nat → LimiterSettings} {reach : Nat → Bool}
variable {R : Nat → Traffic.RemoteStep ν ρ ω}
variable {calls : Nat → Option (Call ν)} {own : Nat → Own ν} {remote : ρ}
variable {ms : List (Move (Traffic.Circumstances ω))}
variable {kind : Request ν → Bool}

/-- The evaluations of every operation, cut out of a log. -/
def Cut (cfg : Nat → LimiterSettings) (reach : Nat → Bool) (calls : Nat → Option (Call ν))
    (log : Log ν ω) (es : Nat → List (Evaluation ν)) : Prop :=
  ∀ i c, calls i = some c →
    Evaluated (cfg c.limiter) (reach c.limiter) c.limiter c.op (Crowd.deeds i log) (es i)

/-- The checks that have begun and whose rules are all valid. -/
def begun (calls : Nat → Option (Call ν)) (log : Log ν ω) : Finset Nat :=
  (Crowd.started log).filter fun i => ((calls i).any fun c => isCheck c.op) = true

/-- The accounts of a run: what the counters say, and what was done. -/
structure Balanced (calls : Nat → Option (Call ν)) (returned : Nat → Bool)
    (es : Nat → List (Evaluation ν)) (log : Log ν ω) (k : Counters) : Prop where
  /-- Every check that has begun is counted, if its rules are valid. -/
  checks : k.totalChecks = (begun calls log).card
  /-- Only those that have not returned, because they are still at it or were dropped, are neither
  allowed nor throttled. -/
  verdicts : k.allowed + k.throttled +
    ((begun calls log).filter fun i => returned i = false).card = k.totalChecks
  /-- Every evaluation with an outcome was judged in process or by a remote store. -/
  evaluations : k.fallbackChecks + ∑ i ∈ Crowd.started log, (es i).countP Evaluation.afar =
    ∑ i ∈ Crowd.started log, (es i).length
  /-- Every remote call whose error or timeout was seen is counted, whichever operation has made
  it. -/
  failures : k.backendFailures = ∑ i ∈ Crowd.started log, failures (returned i) (Crowd.deeds i log)

/-- What an operation has done is a path through its text, which is at its end just if the operation
has returned. -/
theorem takes_of_call (cfg : Nat → LimiterSettings) (reach : Nat → Bool)
    (R : Nat → Traffic.RemoteStep ν ρ ω) (own : Nat → Own ν) (remote : ρ)
    (ms : List (Move (Traffic.Circumstances ω))) {i : Nat} {c : Call ν} (hc : calls i = some c) :
    ∃ q, (c.program cfg reach).Takes (Crowd.deeds i (run cfg reach R calls own remote ms).log) q ∧
      q.isDone = returned cfg reach R calls own remote ms i := by
  have htask : (calls i).map (·.program cfg reach) = some (c.program cfg reach) := by rw [hc]; rfl
  have hstands : Crowd.Stands (setting cfg R)
      (opening cfg reach calls own remote) ms i (c.program cfg reach) :=
    Crowd.stands htask ms
  obtain ⟨q, htakes, -, hdone⟩ := hstands
  exact ⟨q, htakes, hdone⟩

theorem exists_call_of_started {i : Nat}
    (hi : i ∈ Crowd.started (run cfg reach R calls own remote ms).log) :
    ∃ c, calls i = some c := by
  obtain ⟨p, hp⟩ := Crowd.exists_task_of_started hi
  obtain ⟨c, hc, -⟩ := Option.map_eq_some_iff.1 hp
  exact ⟨c, hc⟩

/-- What is counted in all is the sum of what each operation has added. -/
theorem total_eq_sum {f : Nat → Nat}
    (hf : ∀ i c q, calls i = some c → i ∈ Crowd.started (run cfg reach R calls own remote ms).log →
      (c.program cfg reach).Takes (Crowd.deeds i (run cfg reach R calls own remote ms).log) q →
      q.isDone = returned cfg reach R calls own remote ms i →
      (Crowd.deeds i (run cfg reach R calls own remote ms).log).countP (Deed.calls kind) = f i) :
    total kind (run cfg reach R calls own remote ms).log =
      ∑ i ∈ Crowd.started (run cfg reach R calls own remote ms).log, f i := by
  rw [total, ← Crowd.sum_countP_deeds]
  refine Finset.sum_congr rfl fun i hi => ?_
  obtain ⟨c, hc⟩ := exists_call_of_started hi
  obtain ⟨q, htakes, hdone⟩ := takes_of_call cfg reach R own remote ms hc
  exact hf i c q hc hi htakes hdone

theorem total_starts :
    total starts (run cfg reach R calls own remote ms).log =
      (begun calls (run cfg reach R calls own remote ms).log).card := by
  rw [begun, Finset.card_filter]
  refine total_eq_sum fun i c q hc hi htakes _ => ?_
  rw [countP_starts htakes, hc]
  simp [Crowd.mem_started.1 hi]

/-- Every check that has begun has a verdict or has not returned. -/
theorem total_verdicts :
    total verdicts (run cfg reach R calls own remote ms).log +
        ((begun calls (run cfg reach R calls own remote ms).log).filter fun i =>
          returned cfg reach R calls own remote ms i = false).card =
      (begun calls (run cfg reach R calls own remote ms).log).card := by
  have hreturned : total verdicts (run cfg reach R calls own remote ms).log =
      ((begun calls (run cfg reach R calls own remote ms).log).filter fun i =>
        ¬ returned cfg reach R calls own remote ms i = false).card := by
    rw [begun, Finset.filter_filter, Finset.card_filter]
    refine total_eq_sum fun i c q hc _ htakes hdone => ?_
    rw [countP_verdicts htakes, hc, hdone]
    simp
  rw [hreturned, Nat.add_comm]
  exact Finset.card_filter_add_card_filter_not _

theorem total_judges {es : Nat → List (Evaluation ν)}
    (hes : Cut cfg reach calls (run cfg reach R calls own remote ms).log es) :
    total judges (run cfg reach R calls own remote ms).log +
        ∑ i ∈ Crowd.started (run cfg reach R calls own remote ms).log,
          (es i).countP Evaluation.afar =
      ∑ i ∈ Crowd.started (run cfg reach R calls own remote ms).log, (es i).length := by
  rw [total_eq_sum (f := fun i => (es i).length - (es i).countP Evaluation.afar)
    fun i c q hc _ htakes _ => ?_, ← Finset.sum_add_distrib]
  · exact Finset.sum_congr rfl fun i _ => Nat.sub_add_cancel List.countP_le_length
  · rw [← (hes i c hc).balance htakes, Nat.add_sub_cancel]

omit [Amount ν] in
theorem total_passes_add_denies (log : Log ν ω) :
    total passes log + total denies log = total verdicts log := by
  induction log with
  | nil => rfl
  | cons e log ih =>
    have hdeed : (e.deed.calls verdicts).toNat = (e.deed.calls passes).toNat +
        (e.deed.calls denies).toNat := by
      cases e.deed with
      | wait => rfl
      | call r x =>
        obtain ⟨j, r⟩ := r
        cases r with
        | own r => cases r <;> rfl
        | remote r => rfl
    rw [total_cons, total_cons, total_cons, ← ih, hdeed]
    omega

/-- **The counters add up.** At every point of every run of limiters that share their counters, with
remote stores that answer as they please and operations dropped anywhere: the deeds of every check
can be cut into evaluations of its rules, and however they are cut, the counters are what was
done. -/
theorem counters_add_up (cfg : Nat → LimiterSettings) (reach : Nat → Bool)
    (R : Nat → Traffic.RemoteStep ν ρ ω) (calls : Nat → Option (Call ν)) (own : Nat → Own ν)
    (remote : ρ) (ms : List (Move (Traffic.Circumstances ω))) :
    let c := run cfg reach R calls own remote ms
    (∃ es, Cut cfg reach calls c.log es) ∧
      ∀ es, Cut cfg reach calls c.log es →
        Balanced calls (returned cfg reach R calls own remote ms) es c.log c.state.counters := by
  intro c
  refine ⟨?_, fun es hes => ?_⟩
  · have hcut : ∀ i, ∃ es, ∀ call, calls i = some call →
        Evaluated (cfg call.limiter)
          (reach call.limiter) call.limiter call.op (Crowd.deeds i c.log) es := by
      intro i
      cases hi : calls i with
      | none => exact ⟨[], fun call hcall => by cases hcall⟩
      | some call =>
        obtain ⟨q, htakes, -⟩ := takes_of_call cfg reach R own remote ms hi
        obtain ⟨es, hes⟩ := exists_evaluated htakes
        refine ⟨es, fun call' hcall => ?_⟩
        cases hcall
        exact hes
    choose es hes using hcut
    exact ⟨es, hes⟩
  · have hcounters : c.state.counters = counted c.log := counters_run reach calls own remote ms
    rw [hcounters]
    refine ⟨total_starts, ?_, total_judges hes, total_eq_sum fun i call q _ _ htakes hdone => ?_⟩
    · show total passes c.log + total denies c.log + _ = total starts c.log
      rw [total_passes_add_denies, total_starts]
      exact total_verdicts
    · rw [countP_fails htakes, hdone]

end Runs

/-! ### A scene of two limiters -/

/-- One request a minute. -/
def oneAMinute : Rule Rat := ⟨some "one", .window ⟨1, 60⟩⟩

/-- Four checks and a probe, at one or the other of two limiters. -/
def fiveCalls : Nat → Option (Call Rat)
  | 0 => some ⟨0, .check "ann" [oneAMinute]⟩
  | 1 => some ⟨1, .check "ann" [oneAMinute]⟩
  | 2 => some ⟨0, .enforce "ann" [oneAMinute]⟩
  | 3 => some ⟨1, .check "ann" [oneAMinute]⟩
  | 4 => some ⟨1, .probe⟩
  | _ => none

/-- One failure trips a breaker for good. -/
def jumpy : LimiterSettings := ⟨.standard, ⟨1, none⟩⟩

/-- Some steps of one operation, at which the remote store turns out to be as it is told. -/
def steps (n i : Nat) (change : Switch) : List (Move (Traffic.Circumstances Switch)) :=
  List.replicate n (.step i ⟨.epoch, 0, change⟩)

/-- The first check fails to reach the remote store and is allowed in process. The second is allowed
by the remote store, and the third is throttled in process. The fourth is dropped while the store
takes its time. The probe fails. -/
def fiveCallsAtWork : List (Move (Traffic.Circumstances Switch)) :=
  steps 9 0 ⟨some true, none⟩ ++ steps 8 1 ⟨some false, none⟩ ++ steps 5 2 ⟨none, none⟩ ++
    steps 5 3 ⟨none, some (some (.ofMillis 100))⟩ ++ [.drop 3] ++ steps 4 4 ⟨some true, some none⟩

/-- Both limiters have the same remote store. -/
def rehearsed : Scene Rat (UnreliableStore Rat) Switch :=
  run (fun _ => jumpy) (fun _ => true)
    (fun _ => Traffic.flaky) fiveCalls (fun _ => ⟨.empty, .initial⟩) .initial
    fiveCallsAtWork

/-- Four checks have begun, one of them has no verdict, and two remote calls have come to nothing.
Two rules were judged in process. -/
theorem counters_add_up_fiveCalls :
    rehearsed.state.counters = ⟨4, 2, 1, 2, 2⟩ ∧
      ∃ es, Cut (fun _ => jumpy) (fun _ => true) fiveCalls rehearsed.log es ∧
        Balanced fiveCalls
          (returned (fun _ => jumpy) (fun _ => true) (fun _ => Traffic.flaky) fiveCalls
            (fun _ => ⟨.empty, .initial⟩) .initial fiveCallsAtWork)
          es rehearsed.log ⟨4, 2, 1, 2, 2⟩ := by
  have hcounters : rehearsed.state.counters = ⟨4, 2, 1, 2, 2⟩ := by decide +kernel
  obtain ⟨⟨es, hes⟩, hbalanced⟩ := counters_add_up (fun _ => jumpy) (fun _ => true)
    (fun _ => Traffic.flaky) fiveCalls
    (fun _ => ⟨.empty, .initial⟩) .initial fiveCallsAtWork
  have hes' := hbalanced es hes
  rw [← rehearsed, hcounters] at hes'
  exact ⟨hcounters, es, hes, hes'⟩

end Fleet

end GuardedWrites

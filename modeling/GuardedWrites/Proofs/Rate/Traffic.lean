import GuardedWrites.Proofs.Effect.Monitor
import GuardedWrites.Proofs.Rate.Tripping
import GuardedWrites.Rate.Limiter

/-!
# Calls of a limiter and of its remote store

Any number of operations of one limiter, their steps mixed in any order, each of them dropped at any
point. The remote store answers each call late, wrong or not at all, as it pleases.

* `Limiter.Operation` — what callers ask of a limiter;
* `Traffic.setting` — how its own state and the remote store answer;
* `Traffic.Progress` — what an operation has done so far, read off its deeds; `Stage` is where it
  stands towards the remote store;
* `Traffic.Fits` — what an operation may do next; `Traffic.conduct` says that it does nothing else;
* `Traffic.OnCourse` — the same of every operation in a crowd, at every point of a schedule;
* `Traffic.heard` — what the breaker makes of the deeds.
-/

namespace GuardedWrites

namespace Limiter

/-- What a caller asks of a limiter. -/
inductive Operation (ν : Type) where
  | check (key : String) (rules : List (Rule ν))
  | enforce (key : String) (rules : List (Rule ν))
  | status (key : String) (rules : List (Rule ν))
  | reset (key : String)
  | probe

/-- What comes back from an operation. -/
inductive Operation.Result where
  | verdict (v : Except Failure Verdict)
  | report (r : Except Failure StatusReport)
  | reachable (answered : Bool)
  | done

/-- The key and the rules of a check, whichever way its denial is reported. -/
def Operation.check? {ν : Type} : Operation ν → Option (String × List (Rule ν))
  | .check key rules | .enforce key rules => some (key, rules)
  | _ => none

/-- Performs an operation. -/
def perform {ν : Type} [Amount ν] {m : Type → Type} [Monad m] [Timed m] (L : Limiter ν m) :
    Operation ν → m Operation.Result
  | .check key rules => do return .verdict (← L.check key rules)
  | .enforce key rules => do return .verdict (← L.enforce key rules)
  | .status key rules => do return .report (← L.status key rules)
  | .reset key => do
    L.reset key
    return .done
  | .probe => do return .reachable (← L.probe)

end Limiter

namespace Traffic

open Limiter (Operation)

variable {ν ρ ω : Type}

/-- A step of the limiter's own state, or of the remote store. -/
inductive Request (ν : Type) where
  | own (r : Limiter.Request ν)
  | remote (r : UnreliableStore.Request ν)

/-- What the reply to a step holds. -/
abbrev Reply : Request ν → Type
  | .own r => Limiter.Reply r
  | .remote r => (UnreliableStore.service ν).Reply r

/-- The limiter's own state and the remote store as one service. -/
abbrev service (ν : Type) : Service := ⟨Request ν, Reply⟩

/-- The remote store: a call arrives, takes its time and is answered. -/
def remoteStore : (RateStore.service ν).Via (Program (service ν)) :=
  UnreliableStore.remote fun r => Program.ask (S := service ν) (.remote r)

/-- A limiter, with the remote store or without one. -/
def limiter (cfg : LimiterSettings) (reach : Bool) : Limiter ν (Program (service ν)) :=
  { settings := cfg
    own := fun r => Program.ask (S := service ν) (.own r)
    remote := if reach then some remoteStore else none }

/-- What decides about one step beside the state: the clock, the timer, and what comes over the
remote store. -/
structure Circumstances (ω : Type) where
  now : Moment
  timer : Nat
  remote : ω

/-- The state of the limiter and of the remote store. -/
structure State (ν ρ : Type) where
  limiter : Limiter.State ν
  remote : ρ

/-- How a remote store with state `ρ` takes its steps. -/
abbrev RemoteStep (ν ρ ω : Type) : Type :=
  ω → (r : UnreliableStore.Request ν) → ρ → (UnreliableStore.service ν).Reply r × ρ

section Setting

variable [Amount ν]

/-- One step. -/
def step (cfg : LimiterSettings) (R : RemoteStep ν ρ ω) (o : Circumstances ω) :
    (r : Request ν) → State ν ρ → Reply r × State ν ρ
  | .own r, s =>
    let x := Limiter.step cfg o.now s.limiter r
    (x.1, { s with limiter := x.2 })
  | .remote r, s =>
    let x := R o.remote r s.remote
    (x.1, { s with remote := x.2 })

/-- How the operations of a limiter are answered. -/
def setting (cfg : LimiterSettings) (R : RemoteStep ν ρ ω) :
    Setting (service ν) (State ν ρ) (Circumstances ω) :=
  ⟨step cfg R, (·.timer)⟩

/-- The remote store of rehearsals. At each of its steps it may turn out to be switched off or on,
slower or faster. -/
def flaky : RemoteStep ν (UnreliableStore ν) Switch := fun change r s => (s.switch change).step r

/-- Operations at work. -/
abbrev Scene (ν ρ ω : Type) := Crowd (service ν) (State ν ρ) (Circumstances ω) Operation.Result

/-- The operations by number, before their first step. -/
def calls (cfg : LimiterSettings) (reach : Bool) (ops : Nat → Option (Operation ν)) (i : Nat) :
    Option (Program (service ν) Operation.Result) :=
  (ops i).map (limiter cfg reach).perform

end Setting

/-! ### What an operation has done -/

/-- Where an operation stands towards the remote store. -/
inductive Stage where
  /-- It has nothing under way. -/
  | away
  /-- The breaker has let it through, and it has not called yet. -/
  | granted
  /-- It has called and waits for the answer. -/
  | calling
  /-- Its last call was answered. -/
  | answered
  /-- Its last call was refused. -/
  | refused
deriving DecidableEq

/-- The stage after a deed. -/
def Stage.next : Stage → Deed (service ν) → Stage
  | _, .call (.own .remoteAllowed) true => .granted
  | _, .call (.remote .arrive) _ => .calling
  | _, .call (.remote (.answer _)) (.ok _) => .answered
  | _, .call (.remote (.answer _)) (.error _) => .refused
  | _, .call (.own .remoteAnswered) _ => .away
  | _, .call (.own .remoteFailed) _ => .away
  | s, _ => s

/-- The clock reading that a deed has brought. -/
def reading? : Deed (service ν) → Option Moment
  | .call (.own .now) t => some t
  | _ => none

/-- The key and the time of a request that a deed has admitted in process. -/
def admitsHere? : Deed (service ν) → Option (String × Moment)
  | .call (.own (.judge key _ now)) o => if o.allowed then some (key, now) else none
  | _ => none

/-- The key and the time of a request that a deed has admitted at the remote store. -/
def admitsAfar? : Deed (service ν) → Option (String × Moment)
  | .call (.remote (.answer (.judge key _ now))) (.ok o) => if o.allowed
      then some (key, now) else none
  | _ => none

theorem judge_of_admitsHere? {d : Deed (service ν)} {key : String} {t : Moment}
    (h : admitsHere? d = some (key, t)) : ∃ a o, d = .call (.own (.judge key a t)) o := by
  unfold admitsHere? at h
  split at h
  · split at h
    · cases h
      exact ⟨_, _, rfl⟩
    · cases h
  · cases h

theorem judge_of_admitsAfar? {d : Deed (service ν)} {key : String} {t : Moment}
    (h : admitsAfar? d = some (key, t)) :
    ∃ a o, d = .call (.remote (.answer (.judge key a t))) (.ok o) := by
  unfold admitsAfar? at h
  split at h
  · split at h
    · cases h
      exact ⟨_, _, rfl⟩
    · cases h
  · cases h

/-- The key of a request that a deed has admitted. -/
def admits? (d : Deed (service ν)) : Option String :=
  ((admitsHere? d).or (admitsAfar? d)).map Prod.fst

/-- What an operation has done so far: where it stands, which time it has read, and at which keys it
was admitted. -/
structure Progress where
  stage : Stage
  reading : Option Moment
  passed : List String

/-- Nothing is done. -/
def Progress.start : Progress := ⟨.away, none, []⟩

/-- The progress after a deed. -/
def Progress.next (p : Progress) (d : Deed (service ν)) : Progress :=
  ⟨p.stage.next d, (reading? d).or p.reading, (admits? d).toList ++ p.passed⟩

/-- The progress of an operation by its deeds in a log. -/
def progress (i : Nat) (log : List (Step (service ν) (Circumstances ω))) : Progress :=
  (Crowd.deeds i log).foldl Progress.next .start

/-! ### What an operation may do -/

section Conduct

variable [Amount ν]

/-- An operation counts a request under a store key with an algorithm. -/
def Judges (cfg : LimiterSettings) (op : Operation ν) (k : String) (a : Algorithm ν) : Prop :=
  ∃ key rules, op.check? = some (key, rules) ∧
    ∃ rule ∈ rules, k = cfg.storeKey key rule.label ∧ a = rule.algorithm

/-- What an operation may do next. Only a status read of no rules reports success without a call. -/
def Fits (cfg : LimiterSettings) (op : Operation ν) (p : Progress) : Deed (service ν) → Prop
  | .call (.own .now) _ => p.reading = none
  | .call (.own .remoteAllowed) _ => p.stage = .away ∧ op ≠ .probe
  | .call (.own .remoteAnswered) _ => p.stage = .answered ∨ p.stage = .granted ∧
      ∃ key, op = .status key []
  | .call (.own .remoteFailed) _ => p.stage = .calling ∨ p.stage = .refused
  | .call (.own (.judge key a now)) _ => p.stage = .away ∧ p.reading = some now ∧
      Judges cfg op key a
  | .call (.own (.forget start)) _ => p.stage = .away ∧ ∃ key, op = .reset key ∧
      start = cfg.storeStart key
  | .call (.remote .arrive) _ => p.stage = .granted ∨ p.stage = .answered ∨
      p.stage = .away ∧ op = .probe
  | .call (.remote (.answer (.judge key a now))) _ =>
    p.stage = .calling ∧ p.reading = some now ∧ Judges cfg op key a
  | .call (.remote (.answer (.clearStarting start))) _ =>
    p.stage = .calling ∧ ∃ key, op = .reset key ∧ start = cfg.storeStart key
  | .call (.remote (.answer _)) _ => p.stage = .calling
  | _ => True

/-- Reads the progress of an operation and allows what fits. -/
def conduct (cfg : LimiterSettings) (op : Operation ν) : Program.Monitor (service ν) Progress :=
  fun p d p' => p' = p.next d ∧ Fits cfg op p d

/-- How an operation ends: it has nothing under way, and a check that is allowed was admitted by
every rule. -/
structure Ends (cfg : LimiterSettings) (op : Operation ν) (p : Progress)
    (r : Operation.Result) : Prop where
  away : p.stage = .away
  passed : ∀ v key rules, r = .verdict (.ok v) → v.allowed = true → op.check? = some (key, rules) →
    ∀ rule ∈ rules, cfg.storeKey key rule.label ∈ p.passed

/-! ### Operations keep to it -/

variable {cfg : LimiterSettings} {reach : Bool} {op : Operation ν} {p : Progress}

/-- The remote store answers whoever has called. -/
theorem calling_of_fits {r : RateStore.Request ν} {x : Reply (.remote (.answer r))}
    (h : Fits cfg op p (.call (.remote (.answer r)) x)) : p.stage = .calling := by
  cases r with
  | judge key a now => exact h.1
  | status key rule now => exact h
  | clearStarting start => exact h.1
  | ping => exact h

open Program (Obeys)

theorem obeys_own {r : Limiter.Request ν} (h : ∀ x, Fits cfg op p (.call (.own r) x)) :
    Obeys (conduct cfg op) (fun p' x => p' = p.next (.call (.own r) x)) p
      ((limiter cfg reach).own r) :=
  fun x => ⟨_, ⟨rfl, h x⟩, rfl⟩

/-- What a call of the remote store has come to: it was answered, it was refused, or it was given
up. -/
def Called (p : Progress) (r : RateStore.Request ν) (p' : Progress) :
    Except BackendError (RateStore.Result r) → Prop
  | .ok a => p' = p.next (.call (.remote (.answer r)) (.ok a))
  | .error _ => p' = { p with stage := .calling } ∨ p' = { p with stage := .refused }

/-- What a call of the remote store with a deadline has come to. -/
def Awaited (p : Progress) (r : RateStore.Request ν) (p' : Progress) :
    Option (Except BackendError (RateStore.Result r)) → Prop
  | some x => Called p r p' x
  | none => p' = { p with stage := .calling }

/-- The answer of the remote store, or a refusal. -/
theorem obeys_answer {r : RateStore.Request ν} {deadline : Nat}
    (hanswer : ∀ x, Fits cfg op { p with stage := .calling } (.call (.remote (.answer r)) x)) :
    Obeys (conduct cfg op) (Awaited p r) { p with stage := .calling }
      ((Program.ask (S := service ν) (.remote (.answer r))).cutAt deadline) := by
  intro x
  refine ⟨_, ⟨rfl, hanswer x⟩, ?_⟩
  cases x with
  | ok a => rfl
  | error e => cases r <;> exact .inr rfl

/-- The answer of a remote store that takes its time, if it comes before the deadline. -/
theorem obeys_late_answer {r : RateStore.Request ν} (n deadline : Nat)
    (hanswer : ∀ x, Fits cfg op { p with stage := .calling } (.call (.remote (.answer r)) x)) :
    Obeys (conduct cfg op) (Awaited p r) { p with stage := .calling }
      ((Program.sleep n (Program.ask (S := service ν) (.remote (.answer r)))).cutAt deadline) := by
  refine ⟨_, ⟨rfl, trivial⟩, fun now => ?_⟩
  dsimp only
  split
  · exact ⟨_, ⟨rfl, trivial⟩, obeys_answer hanswer⟩
  · exact ⟨_, ⟨rfl, trivial⟩, rfl⟩

theorem obeys_bounded {r : RateStore.Request ν}
    (harrive : ∀ x, Fits cfg op p (.call (.remote .arrive) x))
    (hanswer : ∀ x, Fits cfg op { p with stage := .calling } (.call (.remote (.answer r)) x)) :
    Obeys (conduct cfg op) (Called p r) p ((limiter cfg reach).bounded (remoteStore r)) := by
  refine Obeys.bind (Q := Awaited p r) ?_ fun p' y hy => ?_
  · refine ⟨p, ⟨rfl, trivial⟩, fun now latency => ⟨_, ⟨rfl, harrive latency⟩, ?_⟩⟩
    cases latency with
    | none => exact obeys_answer hanswer
    | some d => exact obeys_late_answer d.ticks _ hanswer
  · cases y with
    | some x => exact hy
    | none => exact .inl hy

/-- Where an operation stands when it tells the breaker how its calls ended. -/
def Reports (op : Operation ν) (p : Progress) {α : Type} : Except BackendError α → Prop
  | .ok _ => p.stage = .answered ∨ p.stage = .granted ∧ ∃ key, op = .status key []
  | .error _ => p.stage = .calling ∨ p.stage = .refused

theorem obeys_settle {α : Type} {x : Except BackendError α} (h : Reports op p x) :
    Obeys (conduct cfg op) (fun p' y => p' = { p with stage := .away } ∧ y = x.toOption) p
      ((limiter cfg reach).settle x) := by
  cases x with
  | ok a => exact fun _ => ⟨_, ⟨rfl, h⟩, rfl, rfl⟩
  | error e => exact fun _ => ⟨_, ⟨rfl, h⟩, rfl, rfl⟩

omit [Amount ν] in
theorem Called.reports {r : RateStore.Request ν} {p' : Progress}
    {x : Except BackendError (RateStore.Result r)} (h : Called p r p' x) :
    Reports op p' x := by
  cases x with
  | ok a => exact .inl (h ▸ rfl)
  | error e => exact h.elim (fun h => .inl (h ▸ rfl)) fun h => .inr (h ▸ rfl)

/-- The question whether the remote store may be used now. -/
theorem obeys_remoteNow (hp : p.stage = .away) (hop : op ≠ .probe) :
    Obeys (conduct cfg op)
      (fun p' x => x = none ∧ p' = p ∨
        x = some remoteStore ∧ p' = { p with stage := .granted })
      p (limiter cfg reach).remoteNow := by
  cases reach with
  | false => exact .inl ⟨rfl, rfl⟩
  | true =>
    intro granted
    refine ⟨_, ⟨rfl, hp, hop⟩, ?_⟩
    cases granted with
    | false => exact .inl ⟨rfl, rfl⟩
    | true => exact .inr ⟨rfl, rfl⟩

/-- What a judged rule leaves behind: it was judged under the reading of the clock, and if it
admitted, its key is among those passed. -/
structure Judged (p : Progress) (k : String) (p' : Progress) (allowed : Bool) : Prop where
  away : p'.stage = .away
  reading : p'.reading = p.reading
  passed : allowed = true → k ∈ p'.passed
  kept : ∀ k ∈ p.passed, k ∈ p'.passed

omit [Amount ν] in
theorem admits?_here (k : String) (a : Algorithm ν) (now : Moment) (o : Outcome) :
    admits? (.call (.own (.judge k a now)) o : Deed (service ν)) =
      if o.allowed then some k else none := by
  cases h : o.allowed <;> simp [admits?, admitsHere?, admitsAfar?, h]

omit [Amount ν] in
theorem admits?_afar (k : String) (a : Algorithm ν) (now : Moment) (o : Outcome) :
    admits? (.call (.remote (.answer (.judge k a now))) (.ok o) : Deed (service ν)) =
      if o.allowed then some k else none := by
  cases h : o.allowed <;> simp [admits?, admitsHere?, admitsAfar?, h]

omit [Amount ν] in
theorem judged_cons (p : Progress) (k : String) (allowed : Bool) :
    Judged p k ⟨.away, p.reading, (if allowed then some k else none).toList ++ p.passed⟩
      allowed := by
  refine ⟨rfl, rfl, fun h => ?_, fun k' h => List.mem_append_right _ h⟩
  simp [h]

theorem obeys_judge {k : String} {a : Algorithm ν} {now : Moment} (hp : p.stage = .away)
    (hr : p.reading = some now) (hj : Judges cfg op k a) :
    Obeys (conduct cfg op) (fun p' o => Judged p k p' o.allowed) p
      ((limiter cfg reach).own (.judge k a now)) := by
  intro o
  refine ⟨_, ⟨rfl, hp, hr, hj⟩, ?_⟩
  show Judged p k ⟨p.stage, p.reading,
    (admits? (.call (.own (.judge k a now)) o : Deed (service ν))).toList ++ p.passed⟩ o.allowed
  rw [admits?_here, hp]
  exact judged_cons p k o.allowed

/-- A rule is judged here or by the remote store. -/
theorem obeys_evaluate {key : String} {rule : Rule ν} {now : Moment} (hp : p.stage = .away)
    (hr : p.reading = some now) (hop : op ≠ .probe)
    (hj : Judges cfg op (cfg.storeKey key rule.label) rule.algorithm) :
    Obeys (conduct cfg op) (fun p' o => Judged p (cfg.storeKey key rule.label) p' o.allowed) p
      ((limiter cfg reach).evaluate key rule now) := by
  unfold Limiter.evaluate
  refine Obeys.bind (obeys_remoteNow hp hop) fun p' x hx => ?_
  rcases hx with ⟨rfl, rfl⟩ | ⟨rfl, rfl⟩
  · exact obeys_judge hp hr hj
  refine Obeys.bind (obeys_bounded (fun _ => .inl rfl) fun _ => ⟨rfl, hr, hj⟩) fun p' x hx => ?_
  refine Obeys.bind (obeys_settle hx.reports) fun p'' y hy => ?_
  obtain ⟨rfl, rfl⟩ := hy
  cases x with
  | error e =>
    have hrest : ({ p' with stage := .away } : Progress) = p := by
      rcases hx with rfl | rfl <;> rw [← hp]
    show Obeys _ _ _ ((limiter cfg reach).own
      (.judge (cfg.storeKey key rule.label) rule.algorithm now))
    rw [hrest]
    exact obeys_judge hp hr hj
  | ok o =>
    obtain rfl : p' = _ := hx
    show Judged p _ ⟨.away, p.reading,
      (admits? (.call
        (.remote (.answer (.judge (cfg.storeKey key rule.label) rule.algorithm now)))
        (.ok o) : Deed (service ν))).toList ++ p.passed⟩ o.allowed
    rw [admits?_afar]
    exact judged_cons p _ o.allowed

/-- The rules of a check are judged in order, and only if all of them admit the check is allowed. -/
theorem obeys_judgeAll {key : String} {now : Moment} {rules : List (Rule ν)} {remaining : Nat}
    (hp : p.stage = .away) (hr : p.reading = some now) (hop : op ≠ .probe)
    (hj : ∀ rule ∈ rules, Judges cfg op (cfg.storeKey key rule.label) rule.algorithm) :
    Obeys (conduct cfg op) (fun p' v => p'.stage = .away ∧ (∀ k ∈ p.passed, k ∈ p'.passed) ∧
      (v.allowed = true → ∀ rule ∈ rules, cfg.storeKey key rule.label ∈ p'.passed)) p
      ((limiter cfg reach).judgeAll key now remaining rules) := by
  induction rules generalizing p remaining with
  | nil =>
    exact fun _ => ⟨_, ⟨rfl, trivial⟩, hp, fun k hk => hk, fun _ rule h =>
      absurd h List.not_mem_nil⟩
  | cons rule rest ih =>
    unfold Limiter.judgeAll
    refine Obeys.bind (obeys_evaluate hp hr hop (hj rule (.head _))) fun p' o ho => ?_
    split
    · rename_i hallowed
      refine (ih ho.away (ho.reading.trans hr) fun r hm =>
        hj r (.tail _ hm)).mono fun p'' v hv => ?_
      obtain ⟨haway, hkept, hpassed⟩ := hv
      refine ⟨haway, fun k hk => hkept k (ho.kept k hk), fun hv r hm => ?_⟩
      rcases List.mem_cons.1 hm with rfl | hm
      · exact hkept _ (ho.passed hallowed)
      · exact hpassed hv r hm
    · exact fun _ => ⟨_, ⟨rfl, trivial⟩, ho.away, ho.kept, fun h => nomatch h⟩

/-- What a check leaves behind. -/
def Checked (cfg : LimiterSettings) (key : String) (rules : List (Rule ν)) (p : Progress)
    (x : Except Failure Verdict) : Prop :=
  p.stage = .away ∧ ∀ v, x = .ok v → v.allowed = true →
  ∀ rule ∈ rules, cfg.storeKey key rule.label ∈ p.passed

theorem obeys_check {key : String} {rules : List (Rule ν)} (hp : p = .start)
    (hop : op.check? = some (key, rules)) :
    Obeys (conduct cfg op) (Checked cfg key rules) p ((limiter cfg reach).check key rules) := by
  subst hp
  have hne : op ≠ .probe := by
    rintro rfl
    cases hop
  unfold Limiter.check
  split
  · exact ⟨rfl, fun v h => nomatch h⟩
  · refine Obeys.bind (obeys_own fun _ => trivial) fun p _ hp => ?_
    subst hp
    refine Obeys.bind (obeys_own fun _ => rfl) fun p now hp => ?_
    subst hp
    refine Obeys.bind (obeys_judgeAll rfl rfl hne fun rule h =>
      ⟨key, rules, hop, rule, h, rfl, rfl⟩)
      fun p' v hv => ⟨hv.1, fun v' h => ?_⟩
    cases h
    exact hv.2.2

theorem obeys_enforce {key : String} {rules : List (Rule ν)} (hop : op.check? = some (key, rules)) :
    Obeys (conduct cfg op) (Checked cfg key rules) .start
      ((limiter cfg reach).enforce key rules) := by
  refine Obeys.bind (obeys_check rfl hop) fun p x hx => ?_
  cases x with
  | error f => exact hx
  | ok v =>
    refine ⟨hx.1, fun v' h => ?_⟩
    cases ha : v.allowed with
    | false => simp [Verdict.toExcept, ha] at h
    | true =>
      obtain rfl : v = v' := by simpa [Verdict.toExcept, ha] using h
      exact hx.2 v rfl

/-- What reading the counts of some rules has come to: the last call was answered, there was none,
or it failed. -/
def CountsRead (rules : List (Rule ν)) (p p' : Progress) :
    Except BackendError (List RuleStatus) → Prop
  | .ok _ => p'.stage = .answered ∨ rules = [] ∧ p' = p
  | .error _ => p'.stage = .calling ∨ p'.stage = .refused

/-- The remote counts of some rules: every call is answered, or the last one fails. -/
theorem obeys_remoteStatus {key : String} {now : Moment} {rules : List (Rule ν)}
    (hp : p.stage = .granted ∨ p.stage = .answered) :
    Obeys (conduct cfg op) (CountsRead rules p) p
      ((limiter cfg reach).remoteStatus remoteStore key now rules) := by
  induction rules generalizing p with
  | nil => exact .inr ⟨rfl, rfl⟩
  | cons rule rest ih =>
    unfold Limiter.remoteStatus
    have harrive : ∀ x, Fits cfg op p (.call (.remote .arrive) x) := fun _ => hp.imp_right .inl
    refine Obeys.bind (obeys_bounded harrive fun _ => rfl) fun p' x hx => ?_
    cases x with
    | error e =>
      rcases hx with rfl | rfl
      · exact .inl rfl
      · exact .inr rfl
    | ok s =>
      obtain rfl : p' = _ := hx
      refine Obeys.bind (ih (.inr rfl)) fun p'' y hy => ?_
      cases y with
      | error e => exact hy
      | ok more =>
        rcases hy with hy | ⟨-, rfl⟩
        · exact .inl hy
        · exact .inl rfl

theorem obeys_localStatus {key : String} {now : Moment} {rules : List (Rule ν)}
    (hp : p.stage = .away) :
    Obeys (conduct cfg op) (fun p' _ => p'.stage = .away) p
      ((limiter cfg reach).localStatus key now rules) := by
  induction rules generalizing p with
  | nil => exact hp
  | cons rule rest ih =>
    refine Obeys.bind (obeys_own fun _ => trivial) fun p' s hs => ?_
    subst hs
    exact Obeys.bind (ih hp) fun p' more h => h

theorem obeys_status {key : String} {rules : List (Rule ν)} (hop : op = .status key rules) :
    Obeys (conduct cfg op) (fun p _ => p.stage = .away) .start
      ((limiter cfg reach).status key rules) := by
  have hne : op ≠ .probe := by
    rintro rfl
    cases hop
  unfold Limiter.status
  split
  · rfl
  refine Obeys.bind (obeys_own fun _ => rfl) fun p now hp => ?_
  subst hp
  refine Obeys.bind (obeys_remoteNow rfl hne) fun p x hx => ?_
  rcases hx with ⟨rfl, rfl⟩ | ⟨rfl, rfl⟩
  · show Obeys _ _ _ (Program.bind ((limiter cfg reach).localStatus key now rules) _)
    exact Obeys.bind (obeys_localStatus rfl) fun p' statuses h => h
  · refine Obeys.bind (obeys_remoteStatus (.inl rfl)) fun p x hx => ?_
    have hreports : Reports op p x := by
      cases x with
      | error e => exact hx
      | ok statuses =>
        rcases hx with hx | ⟨rfl, rfl⟩
        · exact .inl hx
        · exact .inr ⟨rfl, key, hop⟩
    refine Obeys.bind (obeys_settle hreports) fun p' y hy => ?_
    obtain ⟨rfl, -⟩ := hy
    cases y with
    | some statuses => rfl
    | none =>
      show Obeys _ _ _ (Program.bind ((limiter cfg reach).localStatus key now rules) _)
      exact Obeys.bind (obeys_localStatus rfl) fun p' statuses h => h

/-- Forgetting a key. -/
theorem obeys_reset {key : String} (hop : op = .reset key) :
    Obeys (conduct cfg op) (fun p _ => p.stage = .away) .start ((limiter cfg reach).reset key) := by
  have hne : op ≠ .probe := by
    rintro rfl
    cases hop
  unfold Limiter.reset
  refine Obeys.bind (obeys_remoteNow rfl hne) fun p x hx => ?_
  rcases hx with ⟨rfl, rfl⟩ | ⟨rfl, rfl⟩
  · exact fun _ => ⟨_, ⟨rfl, rfl, key, hop, rfl⟩, rfl⟩
  · refine Obeys.bind (obeys_bounded (fun _ => .inl rfl) fun _ => ⟨rfl, key, hop, rfl⟩)
      fun p' x hx => ?_
    refine Obeys.bind (obeys_settle hx.reports) fun p'' y hy => ?_
    obtain ⟨rfl, -⟩ := hy
    exact fun _ => ⟨_, ⟨rfl, rfl, key, hop, rfl⟩, rfl⟩

theorem obeys_probe (hop : op = .probe) :
    Obeys (conduct cfg op) (fun p _ => p.stage = .away) .start (limiter cfg reach).probe := by
  unfold Limiter.probe
  cases reach with
  | false => exact rfl
  | true =>
    refine Obeys.bind (obeys_bounded (fun _ => .inr (.inr ⟨rfl, hop⟩)) fun _ => rfl)
      fun p x hx => ?_
    refine Obeys.bind (obeys_settle hx.reports) fun p' y hy => ?_
    obtain ⟨rfl, -⟩ := hy
    rfl

/-- An operation does only what fits, whatever its requests are answered. -/
theorem obeys_perform (cfg : LimiterSettings) (reach : Bool) (op : Operation ν) :
    Obeys (conduct cfg op) (Ends cfg op) .start ((limiter cfg reach).perform op) := by
  have hends : ∀ {p : Progress} {r : Operation.Result}, p.stage = .away → (∀ v, r ≠ .verdict v) →
      Ends cfg op p r :=
    fun hp hr => ⟨hp, fun v _ _ h => absurd h (hr _)⟩
  have hchecked :
      ∀ {key : String} {rules : List (Rule ν)} {p : Progress} {x : Except Failure Verdict},
      op.check? = some (key, rules) → Checked cfg key rules p x → Ends cfg op p (.verdict x) := by
    intro key rules p x hop hx
    refine ⟨hx.1, fun v key' rules' h hv hop' => ?_⟩
    cases h
    cases hop.symm.trans hop'
    exact hx.2 v rfl hv
  cases op with
  | check key rules => exact Obeys.bind (obeys_check rfl rfl) fun p x hx => hchecked rfl hx
  | enforce key rules => exact Obeys.bind (obeys_enforce rfl) fun p x hx => hchecked rfl hx
  | status key rules => exact Obeys.bind (obeys_status rfl) fun p x hx => hends hx fun v => nofun
  | reset key => exact Obeys.bind (obeys_reset rfl) fun p x hx => hends hx fun v => nofun
  | probe => exact Obeys.bind (obeys_probe rfl) fun p x hx => hends hx fun v => nofun

/-! ### Operations side by side -/

section Crowds

variable {R : RemoteStep ν ρ ω} {ops : Nat → Option (Operation ν)} {c : Scene ν ρ ω} {i who : Nat}
variable {o : Circumstances ω} {d : Deed (service ν)} {q q' : Program (service ν) Operation.Result}
variable {s s' : State ν ρ}

omit [Amount ν] in
theorem progress_cons_self (who : Nat) (o : Circumstances ω) (d : Deed (service ν))
    (log : List (Step (service ν) (Circumstances ω))) :
    progress who (⟨who, o, d⟩ :: log) = (progress who log).next d := by
  simp [progress, Crowd.deeds_cons_self]

omit [Amount ν] in
theorem progress_cons_of_ne {e : Step (service ν) (Circumstances ω)} (h : e.who ≠ i)
    (log : List (Step (service ν) (Circumstances ω))) : progress i (e :: log) = progress i log := by
  simp [progress, Crowd.deeds_cons_of_ne h]

/-- Every operation that is still there goes on from its progress as it may, and ends as it
should. -/
def OnCourse (cfg : LimiterSettings) (ops : Nat → Option (Operation ν)) (c : Scene ν ρ ω) : Prop :=
  ∀ i q, c.tasks i = some q →
    ∃ op, ops i = some op ∧ Obeys (conduct cfg op) (Ends cfg op) (progress i c.log) q

theorem OnCourse.start (cfg : LimiterSettings) (reach : Bool) (ops : Nat → Option (Operation ν))
    (s : State ν ρ) :
    OnCourse cfg ops (Crowd.start s (calls cfg reach ops) : Scene ν ρ ω) := by
  intro i q hq
  obtain ⟨op, hop, rfl⟩ := Option.map_eq_some_iff.1 hq
  exact ⟨op, hop, obeys_perform cfg reach op⟩

theorem OnCourse.forget (hc : OnCourse cfg ops c) (who : Nat) : OnCourse cfg ops (c.forget who) :=
  fun i q hq => hc i q (c.tasks_forget who i hq)

/-- The step of an operation fits. -/
theorem OnCourse.fits (hc : OnCourse cfg ops c) (ht : c.tasks who = some q)
    (hn : q.next? (setting cfg R) o c.state = some (d, q', s')) :
    ∃ op, ops who = some op ∧ Fits cfg op (progress who c.log) d := by
  obtain ⟨op, hop, hq⟩ := hc who q ht
  obtain ⟨p, hp, -⟩ := hq.next? hn
  exact ⟨op, hop, hp.2⟩

theorem OnCourse.advance (hc : OnCourse cfg ops c) (ht : c.tasks who = some q)
    (hn : q.next? (setting cfg R) o c.state = some (d, q', s')) :
    OnCourse cfg ops (c.advance who o d q' s') := by
  intro i q₁ hq₁
  rcases Crowd.tasks_advance_cases hq₁ with ⟨rfl, rfl⟩ | ⟨hi, hq₁⟩
  · obtain ⟨op, hop, hq⟩ := hc i q ht
    obtain ⟨p, ⟨rfl, -⟩, hq'⟩ := hq.next? hn
    refine ⟨op, hop, ?_⟩
    show Obeys _ _ (progress i (⟨i, o, d⟩ :: c.log)) _
    rwa [progress_cons_self]
  · obtain ⟨op, hop, hq⟩ := hc i q₁ hq₁
    refine ⟨op, hop, ?_⟩
    show Obeys _ _ (progress i (⟨who, o, d⟩ :: c.log)) _
    rwa [progress_cons_of_ne fun h => hi h.symm]

/-- At every point of every schedule the operations are on course. -/
theorem onCourse_play (cfg : LimiterSettings) (reach : Bool) (R : RemoteStep ν ρ ω)
    (ops : Nat → Option (Operation ν)) (s : State ν ρ) (ms : List (Move (Circumstances ω))) :
    OnCourse cfg ops ((Crowd.start s (calls cfg reach ops)).play (setting cfg R) ms) :=
  Crowd.play_invariant (fun _ _ _ _ _ _ _ hc ht hn => hc.advance ht hn)
    (fun _ who hc => hc.forget who)
    (OnCourse.start cfg reach ops s) ms

theorem OnCourse.ends (hc : OnCourse cfg ops c) {r : Operation.Result}
    (ht : c.tasks i = some (.done r)) :
    ∃ op, ops i = some op ∧ Ends cfg op (progress i c.log) r :=
  hc i _ ht

end Crowds

end Conduct

/-! ### What the breaker hears of it -/

section Hearing

/-- A deed that arrives at the remote store. -/
def arrives : Deed (service ν) → Bool
  | .call (.remote .arrive) _ => true
  | _ => false

/-- A deed that tells the breaker how a call ended. -/
def reports : Deed (service ν) → Bool
  | .call (.own .remoteAnswered) _ => true
  | .call (.own .remoteFailed) _ => true
  | _ => false

/-- The breaker after a deed at a clock reading. -/
def heard (config : HealthConfig) (now : Moment) (b : Breaker) : Deed (service ν) → Breaker
  | .call (.own .remoteAllowed) _ => (b.allowRemote config now).2
  | .call (.own .remoteAnswered) _ => b.recordSuccess
  | .call (.own .remoteFailed) _ => b.recordFailure config now
  | _ => b

variable {b : Breaker} {config : HealthConfig} {now : Moment} {d : Deed (service ν)}

/-- An operation that has something under way has it until it reports. -/
theorem Stage.next_eq_away {s : Stage} (h : s.next d = .away) : s = .away ∨ reports d = true := by
  unfold Stage.next at h
  split at h
  · cases h
  · cases h
  · cases h
  · cases h
  · exact .inr rfl
  · exact .inr rfl
  · exact .inl h

/-- What the breaker hears: a question, a success, a failure, or nothing. -/
theorem heard_cases (b : Breaker) (config : HealthConfig) (now : Moment) (d : Deed (service ν)) :
    (∃ x, d = .call (.own .remoteAllowed) x ∧ heard config now b d = (b.allowRemote config now).2) ∨
      (∃ x, d = .call (.own .remoteAnswered) x ∧ heard config now b d = b.recordSuccess) ∨
      (∃ x, d = .call (.own .remoteFailed) x ∧ heard config now b d = b.recordFailure config now) ∨
      reports d = false ∧ heard config now b d = b := by
  cases d with
  | wait => exact .inr (.inr (.inr ⟨rfl, rfl⟩))
  | call r x =>
    cases r with
    | remote r => exact .inr (.inr (.inr ⟨rfl, rfl⟩))
    | own r =>
      cases r with
      | remoteAllowed => exact .inl ⟨x, rfl, rfl⟩
      | remoteAnswered => exact .inr (.inl ⟨x, rfl, rfl⟩)
      | remoteFailed => exact .inr (.inr (.inl ⟨x, rfl, rfl⟩))
      | _ => exact .inr (.inr (.inr ⟨rfl, rfl⟩))

/-- Only a report ends a trial. -/
theorem heard_probing (h : b.health = .probing) (hd : reports d = false) :
    heard config now b d = b := by
  rcases heard_cases b config now d with ⟨x, -, hb⟩ | ⟨x, rfl, -⟩ | ⟨x, rfl, -⟩ | ⟨-, hb⟩
  · rw [hb]
    rcases Breaker.allowRemote_cases b config now with
      ⟨hhealth, -⟩ | ⟨wait, hhealth, -⟩ | ⟨-, -, hsame⟩
    · cases h.symm.trans hhealth
    · cases h.symm.trans hhealth
    · rw [hsame]
  · cases hd
  · cases hd
  · exact hb

/-- A trial goes on without a report, or it begins with a permission. -/
theorem probing_of_heard (h : (heard config now b d).health = .probing) :
    b.health = .probing ∧ reports d = false ∨ b.health = .degraded ∧
    ∃ x, d = .call (.own .remoteAllowed) x ∧
      (b.allowRemote config now).1 = true := by
  rcases heard_cases b config now d with ⟨x, rfl, hb⟩ | ⟨x, rfl, hb⟩ | ⟨x, rfl, hb⟩ | ⟨hd, hb⟩
  · rw [hb] at h
    rcases Breaker.allowRemote_cases b config now with
      ⟨hhealth, hx⟩ | ⟨wait, hhealth, -, -, hx⟩ | ⟨-, -, hx⟩
    · rw [hx] at h
      cases h.symm.trans hhealth
    · exact .inr ⟨hhealth, x, rfl, by rw [hx]⟩
    · rw [hx] at h
      exact .inl ⟨h, rfl⟩
  · rw [hb] at h
    cases h
  · rw [hb] at h
    exact absurd h (Breaker.recordFailure_health_ne_probing b config now)
  · rw [hb] at h
    exact .inl ⟨h, hd⟩

variable [Amount ν] {cfg : LimiterSettings} {R : RemoteStep ν ρ ω} {o : Circumstances ω}
variable {s s' : State ν ρ}
variable {q q' : Program (service ν) Operation.Result}

theorem breaker_of_next? (hn : q.next? (setting cfg R) o s = some (d, q', s')) :
    s'.limiter.breaker = heard cfg.health o.now s.limiter.breaker d := by
  rcases Program.next?_cases hn with ⟨r, next, rfl, rfl, rfl, rfl⟩ | ⟨rfl, rfl, -⟩
  · cases r with
    | own r => cases r <;> rfl
    | remote r => cases r <;> rfl
  · rfl

/-- The breaker decides who may call. -/
theorem granted_of_next? {x : Bool}
    (hn : q.next? (setting cfg R) o s = some (.call (.own .remoteAllowed) x, q', s')) :
    x = (s.limiter.breaker.allowRemote cfg.health o.now).1 :=
  (Program.answer_of_next? hn).1

end Hearing

end Traffic

end GuardedWrites

import GuardedWrites.Proofs.Rate.Fleet

/-!
# What the operations of many limiters may do

An operation that has called a remote store and has no good answer tells its breaker of a failure
before it does anything else. It judges a rule once, in process or by a good answer, and it has no
call open when it returns.

* `Fleet.failures` — the remote calls of an operation that came to nothing;
* `Fleet.judgedAfar` — a rule is judged by a remote store;
* `Fleet.conduct` — what is remembered of the deeds of an operation, and what it may do next;
* `Fleet.obeys_evaluate` — how a rule is judged; `Fleet.obeys_perform` — all operations keep to it;
* `Fleet.countP_fails` — the failures that the breaker is told of are the calls that came to
  nothing.
-/

namespace GuardedWrites

namespace Fleet

open Limiter (Operation)
open Program (Obeys)

variable {ν ρ ω : Type}

/-! ### Calls that came to nothing, and rules that were judged -/

/-- A step with which an operation goes on from a call of a remote store: a step of its limiter, or
the next call. -/
def goesOn : Request ν → Bool
  | ⟨_, .own _⟩ => true
  | ⟨_, .remote .arrive⟩ => true
  | ⟨_, .remote (.answer _)⟩ => false

/-- Whether an operation lacks a good answer to its last call, after a deed. -/
def waits (w : Bool) : Deed (service ν) → Bool
  | .wait => w
  | .call ⟨_, .own _⟩ _ => false
  | .call ⟨_, .remote .arrive⟩ _ => true
  | .call ⟨_, .remote (.answer _)⟩ (.ok _) => false
  | .call ⟨_, .remote (.answer _)⟩ (.error _) => w

/-- How many calls were gone on from without a good answer. -/
def givenUp : Bool → List (Deed (service ν)) → Nat
  | _, [] => 0
  | w, d :: ds => (d.calls goesOn && w).toNat + givenUp (waits w d) ds

/-- The remote calls of an operation whose error or timeout it has seen: it went on, or returned,
without a good answer. -/
def failures (returned : Bool) (ds : List (Deed (service ν))) : Nat :=
  givenUp false ds + (returned && ds.foldl waits false).toNat

/-- A remote store is asked to judge a rule. -/
def asksJudgement : RateStore.Request ν → Bool
  | .judge _ _ _ => true
  | _ => false

/-- A remote store has judged a rule. -/
def judgedAfar : Deed (service ν) → Bool
  | .call ⟨_, .remote (.answer r)⟩ (.ok _) => asksJudgement r
  | _ => false

/-! ### What an operation may do -/

section Conduct

/-- What is remembered of the deeds of an operation: whether it lacks a good answer to its last
call, whether a remote store has judged a rule, and how often a rule was judged in process. -/
@[ext]
structure Memo where
  waiting : Bool
  afar : Bool
  here : Nat

/-- Nothing is done. -/
def Memo.start : Memo := ⟨false, false, 0⟩

/-- The memory after a deed. -/
def Memo.next (m : Memo) (d : Deed (service ν)) : Memo :=
  ⟨waits m.waiting d, judgedAfar d || m.afar, m.here + (d.calls judges).toNat⟩

/-- The verdict of a check. -/
def verdicts (r : Request ν) : Bool := passes r || denies r

/-- The breaker is told of a good answer. -/
def answers : Request ν → Bool
  | ⟨_, .own .remoteAnswered⟩ => true
  | _ => false

/-- What ends the judging of a rule. -/
def decides (r : Request ν) : Bool := judges r || answers r

/-- None of these, and no beginning of a check. -/
def routine (r : Request ν) : Bool := !(starts r || verdicts r || decides r)

/-- A step of an operation that judges no rules. -/
def Plain (r : Request ν) : Prop := routine r = true ∨ answers r = true

/-- What an operation may do next if its steps are of some kind: it tells the breaker of a failure
just when it goes on from a call without a good answer. -/
def Fits (P : Request ν → Prop) (m : Memo) : Deed (service ν) → Prop
  | .wait => True
  | .call r _ => P r ∧ fails r = (goesOn r && m.waiting)

/-- Remembers the deeds of an operation and allows what fits. -/
def conduct (P : Request ν → Prop) : Program.Monitor (service ν) Memo :=
  fun m d m' => m' = m.next d ∧ Fits P m d

/-! ### The steps and what is remembered of them -/

variable {P : Request ν → Prop} {m m' : Memo} {ds : List (Deed (service ν))}

theorem eq_false_of_routine {r : Request ν} (h : routine r = true) :
    starts r = false ∧ verdicts r = false ∧ decides r = false := by
  simpa [routine, and_assoc] using h

theorem eq_false_of_decides {r : Request ν} (h : decides r = true) :
    starts r = false ∧ verdicts r = false := by
  obtain ⟨j, r⟩ := r
  cases r with
  | own r => cases r <;> first | exact ⟨rfl, rfl⟩ | cases h
  | remote r => cases h

theorem eq_false_of_plain {r : Request ν} (h : Plain r) :
    starts r = false ∧ verdicts r = false ∧ judges r = false := by
  obtain ⟨j, r⟩ := r
  cases r with
  | own r => cases r <;> first | exact ⟨rfl, rfl, rfl⟩ | (rcases h with h | h <;> cases h)
  | remote r => exact ⟨rfl, rfl, rfl⟩

theorem starts_of_verdicts {r : Request ν} (h : verdicts r = true) : starts r = false := by
  obtain ⟨j, r⟩ := r
  cases r with
  | own r => cases r <;> first | rfl | cases h
  | remote r => cases h

/-- The memory of a whole path. -/
theorem foldl_next (m : Memo) (ds : List (Deed (service ν))) :
    ds.foldl Memo.next m =
      ⟨ds.foldl waits m.waiting, ds.any judgedAfar || m.afar,
        m.here + ds.countP (Deed.calls judges)⟩ := by
  induction ds generalizing m with
  | nil => rfl
  | cons d ds ih =>
    rw [List.foldl_cons, ih, List.countP_cons]
    refine Memo.ext rfl ?_ ?_
    · simp [Memo.next, Bool.or_left_comm, Bool.or_assoc]
    · cases h : d.calls judges
      · simp [Memo.next, h]
      · simp [Memo.next, h]
        omega

theorem memo_of_accepts (h : Program.Accepts (conduct P) m ds m') :
    m' = ds.foldl Memo.next m := by
  induction ds generalizing m with
  | nil => exact h
  | cons d ds ih =>
    obtain ⟨m₁, ⟨rfl, -⟩, hrest⟩ := h
    exact ih hrest

theorem countP_fails_of_accepts (h : Program.Accepts (conduct P) m ds m') :
    ds.countP (Deed.calls fails) = givenUp m.waiting ds := by
  induction ds generalizing m with
  | nil => rfl
  | cons d ds ih =>
    obtain ⟨m₁, ⟨rfl, hfits⟩, hrest⟩ := h
    have hd : d.calls fails = (d.calls goesOn && m.waiting) := by
      cases d with
      | call r x => exact hfits.2
      | wait => rfl
    rw [List.countP_cons, ih hrest, givenUp, ← hd, Nat.add_comm]
    cases d.calls fails <;> rfl

/-! ### Operations keep to it -/

variable {cfg : LimiterSettings} {reach : Bool} {j : Nat}

theorem obeys_own {r : Limiter.Request ν} (hP : P ⟨j, .own r⟩)
    (hw : fails (⟨j, .own r⟩ : Request ν) = m.waiting) :
    Obeys (conduct P) (fun m' _ =>
      m' = ⟨false, m.afar, m.here + (judges (⟨j, .own r⟩ : Request ν)).toNat⟩) m
      ((limiter cfg reach j).own r) :=
  fun _ => ⟨_, ⟨rfl, hP, hw⟩, rfl⟩

/-- What a call of a remote store has come to: a good answer, or none. -/
def Called (r : RateStore.Request ν) (m m' : Memo) : Except BackendError (RateStore.Result r) → Prop
  | .ok _ => m' = ⟨false, asksJudgement r || m.afar, m.here⟩
  | .error _ => m' = ⟨true, m.afar, m.here⟩

/-- What a call with a deadline has come to. -/
def Awaited (r : RateStore.Request ν) (m m' : Memo) :
    Option (Except BackendError (RateStore.Result r)) → Prop
  | some x => Called r m m' x
  | none => m' = ⟨true, m.afar, m.here⟩

theorem obeys_answer {r : RateStore.Request ν} (hP : P ⟨j, .remote (.answer r)⟩) (deadline : Nat) :
    Obeys (conduct P) (Awaited r m) ⟨true, m.afar, m.here⟩
      ((Program.ask (S := service ν) ⟨j, .remote (.answer r)⟩).cutAt deadline) := by
  intro x
  refine ⟨_, ⟨rfl, hP, rfl⟩, ?_⟩
  cases x with
  | ok a => rfl
  | error e => rfl

theorem obeys_late_answer {r : RateStore.Request ν} (hP : P ⟨j, .remote (.answer r)⟩)
    (n deadline : Nat) :
    Obeys (conduct P) (Awaited r m) ⟨true, m.afar, m.here⟩
      ((Program.sleep n (Program.ask (S := service ν) ⟨j, .remote (.answer r)⟩)).cutAt
        deadline) := by
  refine ⟨_, ⟨rfl, trivial⟩, fun now => ?_⟩
  dsimp only
  split
  · exact ⟨_, ⟨rfl, trivial⟩, obeys_answer hP deadline⟩
  · exact ⟨_, ⟨rfl, trivial⟩, rfl⟩

theorem Called.waiting {r : RateStore.Request ν} {x : Except BackendError (RateStore.Result r)}
    (h : Called r m m' x) : m'.waiting = !x.isOk := by
  cases x with
  | ok a => rw [show m' = _ from h]; rfl
  | error e => rw [show m' = _ from h]; rfl

/-- A call of a remote store with a deadline, if none is open. -/
theorem obeys_bounded {r : RateStore.Request ν} (hP : ∀ r, routine r = true → P r)
    (hm : m.waiting = false) :
    Obeys (conduct P) (Called r m) m ((limiter cfg reach j).bounded (remoteStore j r)) := by
  refine Obeys.bind (Q := Awaited r m) ?_ fun m' y hy => ?_
  · refine ⟨m, ⟨rfl, trivial⟩, fun now latency => ⟨_, ⟨rfl, hP _ rfl, hm.symm⟩, ?_⟩⟩
    cases latency with
    | none => exact obeys_answer (hP _ rfl) _
    | some d => exact obeys_late_answer (hP _ rfl) d.ticks _
  · cases y with
    | some x => exact hy
    | none => exact hy

/-- Whoever has seen a call come to nothing tells the breaker of a failure, and whoever has seen an
answer of a success. -/
theorem obeys_settle {α : Type} {x : Except BackendError α} (hP : ∀ r, routine r = true → P r)
    (ha : P ⟨j, .own .remoteAnswered⟩) (hm : m.waiting = !x.isOk) :
    Obeys (conduct P) (fun m' y => m' = ⟨false, m.afar, m.here⟩ ∧ y = x.toOption) m
      ((limiter cfg reach j).settle x) := by
  cases x with
  | ok a => exact fun _ => ⟨_, ⟨rfl, ha, hm.symm⟩, rfl, rfl⟩
  | error e => exact fun _ => ⟨_, ⟨rfl, hP _ rfl, hm.symm⟩, rfl, rfl⟩

theorem Memo.eq_of_waiting (hm : m.waiting = false) :
    (⟨false, m.afar, m.here⟩ : Memo) = m := by rw [← hm]

theorem obeys_remoteNow (hP : ∀ r, routine r = true → P r) (hm : m.waiting = false) :
    Obeys (conduct P) (fun m' x => m' = m ∧ (x = none ∨ x = some (remoteStore j))) m
      (limiter cfg reach j).remoteNow := by
  cases reach with
  | false => exact ⟨rfl, .inl rfl⟩
  | true =>
    intro granted
    refine ⟨_, ⟨rfl, hP _ rfl, hm.symm⟩, Memo.eq_of_waiting hm, ?_⟩
    cases granted with
    | false => exact .inl rfl
    | true => exact .inr rfl

/-- A reset and a probe have no call open when they return. -/
theorem obeys_reset {key : String} (hP : ∀ r, routine r = true → P r)
    (ha : P ⟨j, .own .remoteAnswered⟩) (hm : m.waiting = false) :
    Obeys (conduct P) (fun m' _ => m'.waiting = false) m ((limiter cfg reach j).reset key) := by
  unfold Limiter.reset
  refine Obeys.bind (obeys_remoteNow hP hm) fun m₁ x hx => ?_
  obtain ⟨rfl, rfl | rfl⟩ := hx
  · exact fun _ => ⟨_, ⟨rfl, hP _ rfl, hm.symm⟩, rfl⟩
  · refine Obeys.bind (obeys_bounded hP hm) fun m₂ x hx => ?_
    refine Obeys.bind (obeys_settle hP ha hx.waiting) fun m₃ y hy => ?_
    obtain ⟨rfl, -⟩ := hy
    exact fun _ => ⟨_, ⟨rfl, hP _ rfl, rfl⟩, rfl⟩

theorem obeys_probe (hP : ∀ r, routine r = true → P r) (ha : P ⟨j, .own .remoteAnswered⟩)
    (hm : m.waiting = false) :
    Obeys (conduct P) (fun m' _ => m'.waiting = false) m
      (limiter cfg reach j : Limiter ν _).probe := by
  unfold Limiter.probe
  cases reach with
  | false => exact hm
  | true =>
    refine Obeys.bind (obeys_bounded hP hm) fun m₁ x hx => ?_
    refine Obeys.bind (obeys_settle hP ha hx.waiting) fun m₂ y hy => ?_
    obtain ⟨rfl, -⟩ := hy
    rfl

variable [Amount ν] {op : Operation ν} {key : String} {now : Moment} {rule : Rule ν}
variable {rules : List (Rule ν)}

/-- A rule was judged once, here or by a remote store. -/
def JudgedOnce (m m' : Memo) : Prop := m' = ⟨false, m.afar, m.here + 1⟩ ∨ m' = ⟨false, true, m.here⟩

theorem obeys_evaluate (hP : ∀ r, routine r = true → P r) (hd : ∀ r, decides r = true → P r)
    (hm : m.waiting = false) :
    Obeys (conduct P) (fun m' _ => JudgedOnce m m') m
      ((limiter cfg reach j).evaluate key rule now) := by
  have hhere : ∀ k a, Obeys (conduct P) (fun m' _ => JudgedOnce m m') m
      ((limiter cfg reach j).own (.judge k a now)) :=
    fun k a => (obeys_own (r := .judge k a now) (m := m) (hd _ rfl) hm.symm).mono
      fun m' _ hm' => .inl hm'
  unfold Limiter.evaluate
  refine Obeys.bind (obeys_remoteNow hP hm) fun m₁ x hx => ?_
  obtain ⟨rfl, rfl | rfl⟩ := hx
  · exact hhere _ _
  refine Obeys.bind (obeys_bounded hP hm) fun m₂ x hx => ?_
  refine Obeys.bind (obeys_settle hP (hd _ rfl) hx.waiting) fun m₃ y hy => ?_
  obtain ⟨rfl, rfl⟩ := hy
  cases x with
  | ok o =>
    obtain rfl : m₂ = ⟨false, true, m₁.here⟩ := hx
    exact .inr rfl
  | error e =>
    obtain rfl : m₂ = ⟨true, m₁.afar, m₁.here⟩ := hx
    show Obeys (conduct P) _ (⟨false, m₁.afar, m₁.here⟩ : Memo)
      ((limiter cfg reach j).own (.judge _ _ now))
    rw [Memo.eq_of_waiting hm]
    exact hhere _ _

theorem obeys_judgeAll {remaining : Nat} (hP : ∀ r, routine r = true → P r)
    (hd : ∀ r, decides r = true → P r) (hv : ∀ r, verdicts r = true → P r)
    (hm : m.waiting = false) :
    Obeys (conduct P) (fun m' _ => m'.waiting = false) m
      ((limiter cfg reach j).judgeAll key now remaining rules) := by
  induction rules generalizing m remaining with
  | nil => exact fun _ => ⟨_, ⟨rfl, hv _ rfl, hm.symm⟩, rfl⟩
  | cons rule rest ih =>
    unfold Limiter.judgeAll
    refine Obeys.bind (obeys_evaluate hP hd hm) fun m' o hm' => ?_
    have hm' : m'.waiting = false := by rcases hm' with rfl | rfl <;> rfl
    split
    · exact ih hm'
    · exact fun _ => ⟨_, ⟨rfl, hv _ rfl, hm'.symm⟩, rfl⟩

theorem obeys_check (hm : m.waiting = false) :
    Obeys (conduct fun _ => True)
      (fun m' _ => m'.waiting = false) m ((limiter cfg reach j).check key rules) := by
  have hall : ∀ (kind : Request ν → Bool) r, kind r = true → True := fun _ _ _ => trivial
  unfold Limiter.check
  split
  · exact hm
  · refine Obeys.bind (obeys_own trivial hm.symm) fun m₁ _ hm₁ => ?_
    subst hm₁
    refine Obeys.bind (obeys_own trivial rfl) fun m₂ now hm₂ => ?_
    subst hm₂
    exact Obeys.bind (obeys_judgeAll (hall _) (hall _) (hall _) rfl) fun m' v hm' => hm'

theorem obeys_remoteStatus (hP : ∀ r, routine r = true → P r) (hm : m.waiting = false) :
    Obeys (conduct P) (fun m' x => m'.waiting = !x.isOk) m
      ((limiter cfg reach j).remoteStatus (remoteStore j) key now rules) := by
  induction rules generalizing m with
  | nil => exact hm
  | cons rule rest ih =>
    unfold Limiter.remoteStatus
    refine Obeys.bind (obeys_bounded hP hm) fun m' x hx => ?_
    cases x with
    | error e => exact hx.waiting
    | ok s =>
      refine Obeys.bind (ih hx.waiting) fun m'' y hy => ?_
      cases y with
      | error e => exact hy
      | ok more => exact hy

theorem obeys_localStatus (hP : ∀ r, routine r = true → P r) (hm : m.waiting = false) :
    Obeys (conduct P) (fun m' _ => m'.waiting = false) m
      ((limiter cfg reach j).localStatus key now rules) := by
  induction rules generalizing m with
  | nil => exact hm
  | cons rule rest ih =>
    unfold Limiter.localStatus
    refine Obeys.bind (obeys_own (hP _ rfl) hm.symm) fun m' s hm' => ?_
    subst hm'
    exact Obeys.bind (ih rfl) fun m'' more hm'' => hm''

theorem obeys_status (hP : ∀ r, routine r = true → P r) (ha : P ⟨j, .own .remoteAnswered⟩)
    (hm : m.waiting = false) :
    Obeys (conduct P) (fun m' _ => m'.waiting = false) m
      ((limiter cfg reach j).status key rules) := by
  unfold Limiter.status
  split
  · exact hm
  refine Obeys.bind (obeys_own (hP _ rfl) hm.symm) fun m₁ now hm₁ => ?_
  subst hm₁
  have hhere : ∀ {m : Memo}, m.waiting = false → Obeys (conduct P)
      (fun m' _ => m'.waiting = false) m
      (((limiter cfg reach j).localStatus key now rules).bind fun statuses =>
        .done (Except.ok (ε := Failure) (⟨key, statuses, .here⟩ : StatusReport))) :=
    fun hm => Obeys.bind (obeys_localStatus hP hm) fun m' _ hm' => hm'
  refine Obeys.bind (obeys_remoteNow hP rfl) fun m₂ x hx => ?_
  obtain ⟨rfl, rfl | rfl⟩ := hx
  · exact hhere rfl
  refine Obeys.bind (obeys_remoteStatus hP rfl) fun m₃ x hx => ?_
  refine Obeys.bind (obeys_settle hP ha hx) fun m₄ y hy => ?_
  obtain ⟨rfl, -⟩ := hy
  cases y with
  | some statuses => rfl
  | none => exact hhere rfl

/-- A check whose rules are all valid. -/
def isCheck (op : Operation ν) : Bool :=
  op.check?.any fun c => c.2.all fun rule => rule.fault?.isNone

theorem rules_valid_iff :
    (rules.all fun rule => rule.fault?.isNone) = true ↔ Rule.firstFault? rules = none := by
  induction rules with
  | nil => simp [Rule.firstFault?]
  | cons rule rest ih =>
    cases hf : rule.fault? with
    | none => simpa [Rule.firstFault?, hf] using ih
    | some fault => simp [Rule.firstFault?, hf]

theorem isCheck_iff :
    isCheck op = true ↔ ∃ key rules, op.check? = some (key, rules) ∧
    Rule.firstFault? rules = none := by
  rw [isCheck, Option.any_eq_true]
  constructor
  · rintro ⟨⟨key, rules⟩, hop, hvalid⟩
    exact ⟨key, rules, hop, rules_valid_iff.1 hvalid⟩
  · rintro ⟨key, rules, hop, hvalid⟩
    exact ⟨(key, rules), hop, rules_valid_iff.2 hvalid⟩

/-- However the denial of a check is reported, reporting takes no step. -/
theorem perform_check (L : Limiter ν (Program (service ν))) (hop : op.check? = some (key, rules)) :
    ∃ f : Except Failure Verdict → Program (service ν) Operation.Result,
      (∀ x, (f x).isDone = true) ∧
      L.perform op = (L.check key rules).bind f := by
  cases op with
  | check key' rules' =>
    cases hop
    exact ⟨fun v => .done (.verdict v), fun _ => rfl, rfl⟩
  | enforce key' rules' =>
    cases hop
    refine ⟨_, fun x => ?_, Program.bind_assoc _ _ _⟩
    cases x <;> rfl
  | status => cases hop
  | reset => cases hop
  | probe => cases hop

/-- An operation that judges no rules neither begins nor ends a check, and has no call open when it
returns. -/
theorem obeys_perform_of_not_isCheck (h : isCheck op = false) :
    Obeys (conduct Plain) (fun m' _ => m'.waiting = false) .start
      ((limiter cfg reach j).perform op) := by
  have hP : ∀ r : Request ν, routine r = true → Plain r := fun _ hr => .inl hr
  have hfaulty : ∀ key rules, op.check? = some (key, rules) →
      ∃ fault, (limiter cfg reach j).check key rules = .done (.error (.invalidRule fault)) := by
    intro key rules hop
    cases hf : Rule.firstFault? rules with
    | none => rw [isCheck_iff.2 ⟨key, rules, hop, hf⟩] at h; cases h
    | some fault => exact ⟨fault, by rw [Limiter.check, hf]; rfl⟩
  cases op with
  | check key rules =>
    obtain ⟨fault, hcheck⟩ := hfaulty key rules rfl
    rw [Limiter.perform, hcheck]
    rfl
  | enforce key rules =>
    obtain ⟨fault, hcheck⟩ := hfaulty key rules rfl
    rw [Limiter.perform, Limiter.enforce, hcheck]
    rfl
  | status key rules => exact Obeys.bind (obeys_status hP (.inr rfl) rfl) fun m' _ hm' => hm'
  | reset key => exact Obeys.bind (obeys_reset hP (.inr rfl) rfl) fun m' _ hm' => hm'
  | probe => exact Obeys.bind (obeys_probe hP (.inr rfl) rfl) fun m' _ hm' => hm'

/-- An operation tells the breaker of a failure just when it goes on from a call without a good
answer, and it has no call open when it returns. -/
theorem obeys_perform :
    Obeys (conduct fun _ => True) (fun m' _ => m'.waiting = false) .start
      ((limiter cfg reach j).perform op) := by
  cases hc : isCheck op with
  | false =>
    refine (obeys_perform_of_not_isCheck hc).simulate (T := fun m n => m = n) ?_
      (fun m n _ hT hQ => hT ▸ hQ) rfl
    rintro m _ d m' rfl ⟨hm', hfits⟩
    refine ⟨m', ⟨hm', ?_⟩, rfl⟩
    cases d with
    | call r x => exact ⟨trivial, hfits.2⟩
    | wait => trivial
  | true =>
    obtain ⟨key, rules, hop, -⟩ := isCheck_iff.1 hc
    obtain ⟨f, hf, hperform⟩ := perform_check (limiter cfg reach j) hop
    rw [hperform]
    refine Obeys.bind (obeys_check rfl) fun m' x hm' => ?_
    obtain ⟨b, hb, -⟩ := Program.bind_of_isDone (hf x) Program.done
    rw [hb]
    exact hm'

/-- The failures that the breaker is told of are the calls that came to nothing. -/
theorem countP_fails {q : Program (service ν) Operation.Result}
    (h : ((limiter cfg reach j).perform op).Takes ds q) :
    ds.countP (Deed.calls fails) = failures q.isDone ds := by
  obtain ⟨m', haccepts, hq⟩ := obeys_perform.takes h
  rw [countP_fails_of_accepts haccepts, failures]
  cases q with
  | done r =>
    have hwaiting : m'.waiting = false := hq
    rw [memo_of_accepts haccepts, foldl_next] at hwaiting
    have hwaiting : ds.foldl waits false = false := hwaiting
    rw [hwaiting]
    rfl
  | _ => rfl

end Conduct

end Fleet

end GuardedWrites

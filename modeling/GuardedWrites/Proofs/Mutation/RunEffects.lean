import GuardedWrites.Mutation
import GuardedWrites.Proofs.Effect.Yields
import GuardedWrites.Proofs.Transaction.Nesting

/-!
# The parts of guarded mutations

Limiter, records, databases and clocks of guarded mutations that run alone, one after the other, and
what a run of a mutation's work does to them.

* `Parts`, `World`, `Parts.answer` — the parts, their state with the log of all that was done, and
  one step;
* `Parts.enforce_yields` — what a check of the rules does: it touches nothing but the limiter;
* `Tried` — what an attempt and a run leave: one commit, or nothing that shows;
* `Parts.attempt_yields`, `Parts.run_yields` — that they do so.
-/

namespace GuardedWrites

open Shared
open TransactionalStore (Request)

/-- What mutations ask for beside databases, records and the time: they make announcements, and take
the steps of the limiter. -/
abbrev Outside (ν : Type) : Service := Marked (Limiter.service ν)

/-- The states of the parts, and all that was done so far, each deed with the reading of the
clock. -/
structure World (ν : Type) where
  limiter : Limiter.State ν
  shared : Shared
  log : List (Moment × Deed (service (Outside ν)))

/-- What guarded mutations are made of: the settings of the limiter and its rules, the configuration
of the guard, the runner, and what the clocks of the records and of the limiter show at each step.
The runner asks its store and nothing else, and its observer asks nothing and returns. -/
structure Parts (ν : Type) where
  settings : LimiterSettings
  rules : List (Rule ν)
  config : IdempotencyConfig
  runner : Runner (Action (Outside ν))
  home : Nat → Nat
  clock : Nat → Moment
  limiterClock : Nat → Moment
  asks : ∀ r scope, runner.ask r scope = Program.ask (S := service (Outside ν))
    (.database runner.store r)
  observes : ∀ a b scope, (runner.observe a b scope).Ends (fun _ => False) fun _ => True

/-- A request to the transaction of a handle, on behalf of its work. -/
def Handle.Serves {W : Service} (h : Handle) : Shared.Request W → Prop
  | .database store r => store = h.store ∧ r.works?.map Prod.fst = some h.tx
  | _ => False

/-- The announcement that work begins. -/
def Deed.IsWork {ν : Type} (d : Deed (service (Outside ν))) : Prop := ∃ h, d = (Mark.given h).deed

namespace Parts

/-- A request to the limiter's own state. -/
def ToLimiter {ν : Type} : Shared.Request (Outside ν) → Prop
  | .other (.inr _) => True
  | _ => False

variable {ν ρ : Type} [Amount ν] (P : Parts ν)

/-- What the limiter and whoever hears announcements reply. -/
def outside (w : World ν) : (r : (Outside ν).Request) → (Outside ν).Reply r
  | .inl _ => ()
  | .inr r => (Limiter.step P.settings (P.limiterClock w.log.length) w.limiter r).1

/-- The limiter's state after a request. -/
def limiterAfter (w : World ν) : Shared.Request (Outside ν) → Limiter.State ν
  | .other (.inr r) => (Limiter.step P.settings (P.limiterClock w.log.length) w.limiter r).2
  | _ => w.limiter

/-- Answers a request. -/
def answer (r : Shared.Request (Outside ν)) (w : World ν) : Reply (Outside ν) r × World ν :=
  let x := Shared.step P.home ⟨P.clock w.log.length, 0, P.outside w⟩ r w.shared
  (x.1, ⟨P.limiterAfter w r, x.2, w.log ++ [(P.clock w.log.length, .call r x.1)]⟩)

/-- The database of the runner. -/
def db (w : World ν) : Database := w.shared.databases (P.home P.runner.store)

/-- The limiter, with nothing but its own state. -/
def limiter : Limiter ν (Action (Outside ν)) :=
  ⟨P.settings, fun r _ => .ask (S := service (Outside ν)) (.other (.inr r)), none⟩

omit [Amount ν] in
theorem discreet : Discreet P.runner where
  asks := P.asks
  observes a b scope := (P.observes a b scope).all fun _ h => h.elim

variable {P} {w w' : World ν}

@[simp] theorem reply_database (q : Request) :
    (P.answer (.database P.runner.store q) w).1 = ((P.db w).step q).1 := rfl

@[simp] theorem db_database (q : Request) :
    P.db (P.answer (.database P.runner.store q) w).2 = ((P.db w).step q).2 :=
  if_pos rfl

theorem databases_database (q : Request) {j : Nat} (hj : j ≠ P.home P.runner.store) :
    (P.answer (.database P.runner.store q) w).2.shared.databases j = w.shared.databases j :=
  if_neg hj

theorem reply_records (q : RecordStore.Request) :
    (P.answer (.records q) w).1 = .ok (w.shared.records.step (P.clock w.log.length) q).1 := rfl

theorem shared_records (q : RecordStore.Request) :
    (P.answer (.records q) w).2.shared =
      { w.shared with records := (w.shared.records.step (P.clock w.log.length) q).2 } := rfl

/-! ### The log -/

theorem log_answer (r : Shared.Request (Outside ν)) (w : World ν) :
    (P.answer r w).2.log = w.log ++ [(P.clock w.log.length, .call r (P.answer r w).1)] := rfl

theorem prefix_answer (r : Shared.Request (Outside ν)) (w : World ν) :
    w.log <+: (P.answer r w).2.log :=
  List.prefix_append _ _

/-- Nothing is taken from the log. -/
theorem prefix_run {α : Type} (p : Program (service (Outside ν)) α) (w : World ν) (n : Nat) :
    w.log <+: (p.run P.answer w n).2.1.log := by
  induction p generalizing w n with
  | done a => exact List.prefix_rfl
  | call r k ih => exact (prefix_answer r w).trans (ih _ _ n)
  | timer k ih => exact ih n w n
  | sleep d k ih => exact ih w (n + d)
  | hang => exact List.prefix_rfl

/-- All that was done from one state to another has a property. -/
def Only (D : Deed (service (Outside ν)) → Prop) (w w' : World ν) : Prop :=
  ∃ ds, w'.log = w.log ++ ds ∧ ∀ x ∈ ds, D x.2

/-- Something that was done from one state to another has a property. -/
def Once (D : Deed (service (Outside ν)) → Prop) (w w' : World ν) : Prop :=
  ∃ ds, w'.log = w.log ++ ds ∧ ∃ x ∈ ds, D x.2

section Log

variable {D : Deed (service (Outside ν)) → Prop} {w₀ : World ν}

omit [Amount ν] in
theorem Only.refl (w : World ν) : Only D w w := ⟨[], by simp⟩

theorem Only.answer (h : Only D w w') (r : Shared.Request (Outside ν))
    (hr : D (.call r (P.answer r w').1)) :
    Only D w (P.answer r w').2 := by
  obtain ⟨ds, hlog, hds⟩ := h
  refine ⟨ds ++ [(P.clock w'.log.length, .call r (P.answer r w').1)], ?_, ?_⟩
  · rw [log_answer, hlog, List.append_assoc]
  · exact List.forall_mem_append.2 ⟨hds, List.forall_mem_singleton.2 hr⟩

omit [Amount ν] in
theorem Only.isPrefix (h : Only D w w') : w.log <+: w'.log := by
  obtain ⟨ds, hlog, -⟩ := h
  exact ⟨ds, hlog.symm⟩

omit [Amount ν] in
theorem Only.mono {D' : Deed (service (Outside ν)) → Prop} (h : Only D w w')
    (hD : ∀ d, D d → D' d) :
    Only D' w w' := by
  obtain ⟨ds, hlog, hds⟩ := h
  exact ⟨ds, hlog, fun x hx => hD x.2 (hds x hx)⟩

omit [Amount ν] in
theorem Only.not_once (h : Only (fun d => ¬ D d) w w') : ¬ Once D w w' := by
  rintro ⟨ds, hlog, x, hx, hD⟩
  obtain ⟨ds', hlog', hds⟩ := h
  obtain rfl := List.append_cancel_left (hlog.symm.trans hlog')
  exact hds x hx hD

theorem Once.answer (r : Shared.Request (Outside ν)) (w : World ν)
    (hr : D (.call r (P.answer r w).1)) :
    Once D w (P.answer r w).2 :=
  ⟨_, log_answer r w, _, .head _, hr⟩

omit [Amount ν] in
theorem Once.later (h : Once D w₀ w) (hw : w.log <+: w'.log) : Once D w₀ w' := by
  obtain ⟨ds, hlog, x, hx, hD⟩ := h
  obtain ⟨more, hmore⟩ := hw
  exact ⟨ds ++ more, by rw [← hmore, hlog, List.append_assoc], x, List.mem_append_left _ hx, hD⟩

omit [Amount ν] in
theorem Once.earlier (h : Once D w w') (hw : w₀.log <+: w.log) : Once D w₀ w' := by
  obtain ⟨ds, hlog, x, hx, hD⟩ := h
  obtain ⟨more, hmore⟩ := hw
  exact ⟨more ++ ds, by rw [hlog, ← hmore, List.append_assoc], x, List.mem_append_right _ hx, hD⟩

omit [Amount ν] in
theorem Once.isPrefix (h : Once D w w') : w.log <+: w'.log := by
  obtain ⟨ds, hlog, -⟩ := h
  exact ⟨ds, hlog.symm⟩

end Log

/-! ### The check of the rules -/

/-- What a check of some rules can say: that one of them cannot be enforced, or else that the
request passes or not. -/
def Checked (rules : List (Rule ν)) (r : Except Failure Verdict) : Prop :=
  (∃ fault, Rule.firstFault? rules = some fault ∧ r = .error (.invalidRule fault)) ∨
    Rule.firstFault? rules = none ∧
    ((∃ v, r = .ok v) ∨ ∃ secs, r = .error (.rateLimitExceeded secs))

section Check

variable (P) (scope : Scope)

omit [Amount ν] in
theorem own_ends (r : Limiter.Request ν) : (P.limiter.own r scope).Ends ToLimiter fun _ => True :=
  ⟨trivial, fun _ => trivial⟩

theorem judgeAll_ends (key : String) (now : Moment) (rules : List (Rule ν)) (remaining : Nat) :
    (P.limiter.judgeAll key now remaining rules scope).Ends ToLimiter fun _ => True := by
  induction rules generalizing remaining with
  | nil => exact (own_ends P scope .checkAllowed).bind fun _ _ => trivial
  | cons rule rest ih =>
    have hjudge : (P.limiter.evaluate key rule now scope).Ends ToLimiter fun _ => True :=
      own_ends P scope (.judge (P.settings.storeKey key rule.label) rule.algorithm now)
    refine hjudge.bind fun outcome _ => ?_
    by_cases ho : outcome.allowed = true
    · simp only [ho, if_true]
      exact ih _
    · simp only [ho]
      exact (own_ends P scope .checkThrottled).bind fun _ _ => trivial

theorem enforce_ends (key : String) (rules : List (Rule ν)) :
    (P.limiter.enforce key rules scope).Ends ToLimiter (Checked rules) := by
  unfold Limiter.enforce Limiter.check
  cases hfault : Rule.firstFault? rules with
  | some fault => exact .inl ⟨fault, hfault, rfl⟩
  | none =>
    refine Program.Ends.bind (Q := fun r => ∃ v, r = .ok v) ?_ fun r hr => ?_
    · refine (own_ends P scope .checkStarted).bind fun _ _ => ?_
      refine (own_ends P scope .now).bind fun now _ => ?_
      exact (judgeAll_ends P scope key now rules _).bind fun v _ => ⟨v, rfl⟩
    · obtain ⟨v, rfl⟩ := hr
      refine .inr ⟨hfault, ?_⟩
      show (∃ w, v.toExcept = .ok w) ∨ ∃ secs, v.toExcept = .error (.rateLimitExceeded secs)
      unfold Verdict.toExcept
      split
      · exact .inl ⟨v, rfl⟩
      · exact .inr ⟨_, rfl⟩

end Check

/-- A deed of the limiter. -/
def OfLimiter : Deed (service (Outside ν)) → Prop
  | .call r _ => ToLimiter r
  | .wait => False

/-- A check of the rules touches nothing but the limiter. -/
theorem enforce_yields (key : String) (scope : Scope) (w : World ν) :
    (P.limiter.enforce key P.rules scope).Yields P.answer w fun r w' =>
      Checked P.rules r ∧ w'.shared = w.shared ∧ Only OfLimiter w w' := by
  refine Program.Yields.of_ends (enforce_ends P scope key P.rules) ?_ ⟨rfl, .refl w⟩
  rintro r w' hr ⟨hshared, honly⟩
  refine ⟨?_, honly.answer r hr⟩
  cases r with
  | other r => exact hshared
  | _ => exact hr.elim

/-! ### Attempts -/

/-- How far an attempt has come whose work is going on: its transaction is open, and nothing else is
different. -/
structure Working (P : Parts ν) (w₀ : World ν) (n : Nat) (w : World ν) : Prop where
  records : w.shared.records = w₀.shared.records
  others : ∀ j, j ≠ P.home P.runner.store → w.shared.databases j = w₀.shared.databases j
  rows : (P.db w).rows = (P.db w₀).rows
  commits : (P.db w).commits = (P.db w₀).commits
  opened : ∃ t, (P.db w).opened.get? n = some t
  alone : ∀ m, m ≠ n → (P.db w).opened.get? m = none

/-- What is left of an attempt, or of some: one commit, or nothing that shows. No transaction is
open, and the work was done at least once. -/
structure Tried (P : Parts ν) (w : World ν) (r : Except Failure ρ) (w' : World ν) : Prop where
  records : w'.shared.records = w.shared.records
  others : ∀ j, j ≠ P.home P.runner.store → w'.shared.databases j = w.shared.databases j
  closed : ∀ m, (P.db w').opened.get? m = none
  committed : ∀ a, r = .ok a → (P.db w').commits = (P.db w).commits + 1
  undone : ∀ f, r = .error f → (P.db w').rows = (P.db w).rows ∧ (P.db w').commits = (P.db w).commits
  worked : Once Deed.IsWork w w'

/-- The work of a mutation, with the announcement of its handle. -/
def announcedWork (work : Handle → Action (Outside ν) (Except Failure ρ)) (h : Handle) :
    Action (Outside ν) (Except Failure ρ) :=
  fun scope => announce (.given h) (work h scope)

section Attempts

variable {work : Handle → Action (Outside ν) (Except Failure ρ)} {w₀ : World ν} {n : Nat}

/-- What work asks for leaves its transaction open and all else as it is. -/
theorem Working.step (h : P.Working w₀ n w) {handle : Handle}
    (hstore : handle.store = P.runner.store) (htx : handle.tx = n) {r : Shared.Request (Outside ν)}
    (hr : handle.Serves r) :
    P.Working w₀ n (P.answer r w).2 := by
  cases r with
  | database store q =>
    obtain ⟨rfl, hq⟩ := hr
    obtain ⟨⟨m, key⟩, hq, hm⟩ := Option.map_eq_some_iff.1 hq
    obtain rfl : m = n := hm.trans htx
    obtain ⟨t, ht⟩ := h.opened
    have hstep := Database.step_of_works hq ht
    rw [hstore]
    refine ⟨h.records, fun j hj => (databases_database q hj).trans (h.others j hj), ?_, ?_, ?_,
      fun k hk => ?_⟩
    · rw [db_database, hstep]
      exact h.rows
    · rw [db_database, hstep]
      exact h.commits
    · rw [db_database, hstep]
      exact ⟨_, (Table.get?_insert _ _ _ _).trans (if_pos rfl)⟩
    · rw [db_database, hstep]
      exact ((Table.get?_insert _ _ _ _).trans (if_neg (Ne.symm hk))).trans (h.alone k hk)
  | _ => exact hr.elim

/-- A transaction is begun. -/
theorem Working.begun (hopen : ∀ m, (P.db w).opened.get? m = none) (context : TransactionContext) :
    P.Working w (P.db w).begun (P.answer (.database P.runner.store (.begin context)) w).2 where
  records := rfl
  others j hj := databases_database _ hj
  rows := by rw [db_database]; rfl
  commits := by rw [db_database]; rfl
  opened := by
    rw [db_database]
    exact ⟨_, (Table.get?_insert _ _ _ _).trans (if_pos rfl)⟩
  alone m hm := by
    rw [db_database]
    exact ((Table.get?_insert _ _ _ _).trans (if_neg (Ne.symm hm))).trans (hopen m)

/-- An announcement is heard, and nothing else. -/
theorem Working.announced (h : P.Working w₀ n w) (k : Mark) :
    P.Working w₀ n (P.answer (.other (.inl k)) w).2 :=
  ⟨h.records, h.others, h.rows, h.commits, h.opened, h.alone⟩

/-- The transaction is asked for its end, which it has reached then. -/
theorem Working.tried (h : P.Working w₀ n w) (hworked : Once Deed.IsWork w₀ w) {q : Request}
    {r : Except Failure ρ} (hopened : ((P.db w).step q).2.opened = (P.db w).opened.erase n)
    (hok : ∀ a, r = .ok a → ((P.db w).step q).2.commits = (P.db w).commits + 1)
    (herror : ∀ f, r = .error f → ((P.db w).step q).2.rows = (P.db w).rows ∧
      ((P.db w).step q).2.commits = (P.db w).commits) :
    P.Tried w₀ r (P.answer (.database P.runner.store q) w).2 where
  records := h.records
  others j hj := (databases_database q hj).trans (h.others j hj)
  closed m := by
    rw [db_database, hopened, Table.get?_erase]
    split
    · rfl
    · exact h.alone m (Ne.symm ‹_›)
  committed a ha := by rw [db_database, hok a ha, h.commits]
  undone f hf := by
    rw [db_database, (herror f hf).1, (herror f hf).2]
    exact ⟨h.rows, h.commits⟩
  worked := hworked.later (prefix_answer _ w)

/-- A commit succeeds or nothing shows, according to what was read. -/
theorem commit_yields (h : P.Working w₀ n w) (hworked : Once Deed.IsWork w₀ w)
    (context : TransactionContext) (a : ρ) :
    (Runs.finish (W := Outside ν) ⟨P.runner.store, n, context⟩
      (.ok a : Except Failure ρ)).Yields P.answer w (P.Tried w₀) := by
  obtain ⟨t, ht⟩ := h.opened
  have hcommit : (P.db w).step (.commit n) = (P.db w).commit n t := by simp only [Database.step, ht]
  by_cases hcurrent : t.isCurrent (P.db w).rows = true
  · have hstep := hcommit.trans (Database.commit_of_isCurrent (P.db w) n hcurrent)
    have hreply : (P.answer (.database P.runner.store (.commit n)) w).1 = .ok () := by
      rw [reply_database, hstep]
    refine Program.Yields.call (Program.Yields.done (h.tried hworked ?_ ?_ ?_))
    · rw [hstep]
      rfl
    · intro a' _
      rw [hstep]
    · intro f hf
      rw [hreply] at hf
      cases hf
  · have hstep := hcommit.trans (Database.commit_of_not_isCurrent (P.db w) n hcurrent)
    have hreply : (P.answer (.database P.runner.store (.commit n)) w).1 =
        .error .serializationFailure := by
      rw [reply_database, hstep]
    refine Program.Yields.call (Program.Yields.done (h.tried hworked ?_ ?_ ?_))
    · rw [hstep]
      rfl
    · intro a' ha
      rw [hreply] at ha
      cases ha
    · intro f _
      rw [hstep]
      exact ⟨rfl, rfl⟩

/-- After a rollback nothing shows. -/
theorem rollback_yields (h : P.Working w₀ n w) (hworked : Once Deed.IsWork w₀ w)
    (context : TransactionContext) (e : Failure) :
    (Runs.finish (W := Outside ν) ⟨P.runner.store, n, context⟩
      (.error e : Except Failure ρ)).Yields P.answer w (P.Tried w₀) := by
  obtain ⟨t, ht⟩ := h.opened
  have hstep : (P.db w).step (.rollback n) =
      (.ok (), { (P.db w).abandon n with rollbacks := (P.db w).rollbacks + 1 }) := by
    simp only [Database.step, ht]
  refine Program.Yields.call (Program.Yields.done (h.tried hworked ?_ ?_ ?_))
  · rw [hstep]
    rfl
  · intro a ha
    cases ha
  · intro f _
    rw [hstep]
    exact ⟨rfl, rfl⟩

/-- The end of an attempt, when its work is over: the transaction is committed, or nothing shows. -/
theorem finish_yields (h : P.Working w₀ n w) (hworked : Once Deed.IsWork w₀ w)
    (context : TransactionContext) (r : Except Failure ρ) :
    (Runs.finish (W := Outside ν) ⟨P.runner.store, n, context⟩ r).Yields P.answer w
      (P.Tried w₀) := by
  cases r with
  | ok a => exact commit_yields h hworked context a
  | error e => exact rollback_yields h hworked context e

/-- An attempt, from a database without open transactions. -/
theorem attempt_yields (hwork : ∀ h, (work h (some h)).Ends h.Serves fun _ => True)
    (hopen : ∀ m, (P.db w).opened.get? m = none) (context : TransactionContext) (scope : Scope) :
    (P.runner.attempt context (announcedWork work) scope).Yields P.answer w (P.Tried w) := by
  rw [Runs.attempt_eq P.discreet]
  refine Program.Yields.call ?_
  let h : Handle := ⟨P.runner.store, (P.db w).begun, context⟩
  let w₁ := (P.answer (.database P.runner.store (.begin context)) w).2
  let w₂ := (P.answer (.other (.inl (.given h))) w₁).2
  have hbegun : P.Working w (P.db w).begun w₂ := (Working.begun hopen context).announced (.given h)
  have hgiven : Once Deed.IsWork w w₂ :=
    (Once.answer (P := P) (.other (.inl (.given h))) w₁ ⟨h, rfl⟩).earlier (prefix_answer _ w)
  have hbody : (work h (some h)).Yields P.answer w₂ fun _ w' =>
      True ∧ P.Working w (P.db w).begun w' ∧ Once Deed.IsWork w w' := by
    refine Program.Yields.of_ends (hwork h) ?_ ⟨hbegun, hgiven⟩
    rintro r w' hr ⟨hworking, honce⟩
    exact ⟨hworking.step rfl rfl hr, honce.later (prefix_answer r w')⟩
  show (((announcedWork work h) (some h)).bind (Runs.finish h)).Yields P.answer w₁ (P.Tried w)
  refine Program.Yields.call (hbody.bind ?_)
  rintro r w' ⟨-, hworking, honce⟩
  exact finish_yields hworking honce context r

omit [Amount ν] in
/-- One try after another that has failed. -/
theorem Tried.then {w₁ w₂ : World ν} {f : Failure} {r : Except Failure ρ}
    (h₁ : P.Tried w (.error f : Except Failure ρ) w₁) (h₂ : P.Tried w₁ r w₂) : P.Tried w r w₂ where
  records := h₂.records.trans h₁.records
  others j hj := (h₂.others j hj).trans (h₁.others j hj)
  closed := h₂.closed
  committed a ha := by rw [h₂.committed a ha, (h₁.undone f rfl).2]
  undone g hg :=
    ⟨(h₂.undone g hg).1.trans (h₁.undone f rfl).1, (h₂.undone g hg).2.trans (h₁.undone f rfl).2⟩
  worked := h₁.worked.later h₂.worked.isPrefix

omit [Amount ν] in
theorem db_congr (h : w'.shared = w.shared) : P.db w' = P.db w :=
  congrArg (fun s => s.databases (P.home P.runner.store)) h

omit [Amount ν] in
/-- A try counts from where nothing was different in the databases and the records yet. -/
theorem Tried.earlier {w₁ w₂ : World ν} {r : Except Failure ρ} (h : P.Tried w₁ r w₂)
    (hshared : w₁.shared = w.shared) (hlog : w.log <+: w₁.log) :
    P.Tried w r w₂ where
  records := hshared ▸ h.records
  others := hshared ▸ h.others
  closed := h.closed
  committed := db_congr hshared ▸ h.committed
  undone := db_congr hshared ▸ h.undone
  worked := h.worked.earlier hlog

/-- **A run** outside any transaction commits once, or nothing of it shows. -/
theorem run_yields (hwork : ∀ h, (work h (some h)).Ends h.Serves fun _ => True)
    (hopen : ∀ m, (P.db w).opened.get? m = none) (spec : RunSpec) :
    (P.runner.run spec (announcedWork work) none).Yields P.answer w (P.Tried w) := by
  refine Runs.run_yields (G := fun _ w => ∀ m, (P.db w).opened.get? m = none)
    (T := fun _ => P.Tried)
    (Q := fun _ => P.Tried) rfl (fun a b => P.observes a b none) ?_ ?_ ?_ hopen
  · intro n w hw
    exact attempt_yields hwork hw (spec.context n) none
  · intro n w r w' _ h _
    exact h
  · intro n w e w' _ h _
    exact ⟨h.closed, fun r w'' h' => h.then h'⟩

end Attempts

end Parts

end GuardedWrites

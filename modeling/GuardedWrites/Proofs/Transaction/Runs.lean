import GuardedWrites.Proofs.Database.Lifetime
import GuardedWrites.Proofs.Effect.Monitor
import GuardedWrites.Proofs.Effect.Yields
import GuardedWrites.Proofs.Transaction.Provenance

/-!
# What a run does

A run that joins no other one is a series of attempts. Each attempt begins a transaction, does the
work and asks for its end; between attempts the run talks to its observer and waits. All but the
last attempt have failed, and the result of the last one is the result of the run.

* `attempt_eq` — an attempt as a tree;
* `Final`, `afterFailure_of_final`, `afterFailure_of_not_final` — which attempt is the last one;
* `obeys_run`, `run_yields` — the rules for what a run obeys and what it comes to: look at one
  attempt;
* `Attempt`, `Ran` — the attempts of a run as they happened, and how its deeds are made of them;
* `ran_of_takes` — the deeds of every run that has ended.
-/

namespace GuardedWrites

open Shared
open TransactionalStore (Request)

variable {W : Service} {ε α : Type}

/-- A deed that concerns no database. -/
def Deed.Aside : Deed (service W) → Prop
  | .call (.database _ _) _ => False
  | _ => True

/-- A request that concerns no database. -/
def Shared.Request.Aside : Shared.Request W → Prop
  | .database _ _ => False
  | _ => True

/-- A runner that asks its store and nothing else, with an observer that asks no store. -/
structure Discreet (R : Runner (Action W)) : Prop where
  asks : ∀ r scope, R.ask r scope = Program.ask (S := service W) (.database R.store r)
  observes : ∀ a b scope, (R.observe a b scope).All Shared.Request.Aside

namespace Runs

variable [TransactionFailure ε] {R : Runner (Action W)} {spec : RunSpec}
variable {work : Handle → Action W (Except ε α)} {scope : Scope}

/-- A run that joins no other one makes attempts of its own. -/
theorem run_alone (halone : Provenance.joins R scope = false) :
    R.run spec work scope = R.attempts spec work (spec.budget - 1) 1 .started scope := by
  refine Provenance.run_of_alone spec ?_
  cases hscope : scope.filter fun h => h.store == R.store with
  | none => rfl
  | some h => simp [Provenance.joins, hscope] at halone

/-- What is left of an attempt when its work is over: the transaction is committed or rolled
back. -/
def finish (h : Handle) : Except ε α → Program (service W) (Except ε α)
  | .ok a => .call (.database h.store (.commit h.tx)) fun x =>
    .done (match x with
      | .ok _ => .ok a
      | .error e => .error (TransactionFailure.ofStoreError e))
  | .error e => .call (.database h.store (.rollback h.tx)) fun _ => .done (.error e)

/-- What is left of an attempt when its transaction was asked for. -/
def opened (store : Nat) (context : TransactionContext) (work : Handle → Action W (Except ε α)) :
    Except StoreError Nat → Program (service W) (Except ε α)
  | .error e => .done (.error (TransactionFailure.ofStoreError e))
  | .ok tx => (work ⟨store, tx, context⟩ (some ⟨store, tx, context⟩)).bind
      (finish ⟨store, tx, context⟩)

theorem attempt_eq (hR : Discreet R) (context : TransactionContext) :
    R.attempt context work scope =
      .call (.database R.store (.begin context)) (opened R.store context work) := by
  have hbegin := hR.asks (.begin context) scope
  unfold Runner.attempt
  simp only [bind, ReaderT.bind]
  rw [hbegin]
  refine congrArg (Program.call (S := service W) _) (funext fun x => ?_)
  rcases x with e | tx
  · rfl
  · show (work ⟨R.store, tx, context⟩ (some ⟨R.store, tx, context⟩)).bind _ = _
    refine congrArg (Program.bind (S := service W) _) (funext fun v => ?_)
    rcases v with e | a
    · have hrollback := hR.asks (.rollback tx) scope
      simp only [bind, ReaderT.bind]
      rw [hrollback]
      rfl
    · have hcommit := hR.asks (.commit tx) scope
      simp only [bind, ReaderT.bind]
      rw [hcommit]
      refine congrArg (Program.call (S := service W) _) (funext fun y => ?_)
      rcases y with e | u <;> rfl

/-- What is left of a round when its attempt is over. -/
def settle (R : Runner (Action W)) (scope : Scope) (failed : ε → Action W (Except ε α)) :
    Except ε α → Program (service W) (Except ε α)
  | .ok a => (R.observe .running .committed scope).bind fun _ => .done (.ok a)
  | .error e => failed e scope

theorem round_eq (n : Nat) (phase : Phase) (failed : ε → Action W (Except ε α)) :
    R.round spec work n phase failed scope =
      (R.observe phase .running scope).bind fun _ =>
        (R.attempt (spec.context n) work scope).bind (settle R scope failed) := by
  unfold Runner.round
  refine congrArg (Program.bind (S := service W) _) (funext fun _ => ?_)
  refine congrArg (Program.bind (S := service W) _) (funext fun r => ?_)
  rcases r with e | a <;> rfl

/-- What a run does after a failed attempt, if `left` more are allowed. -/
def afterFailure (R : Runner (Action W)) (spec : RunSpec) (work : Handle → Action W (Except ε α))
    (n : Nat) (e : ε) :
    Nat → Action W (Except ε α)
  | 0 => R.giveUp e
  | left + 1 =>
    match R.classOf e with
    | .fatal => R.giveUp e
    | .retryable => do
      R.observe .running .rolledBackRetry
      R.pause n
      R.attempts spec work left (n + 1) .rolledBackRetry

theorem attempts_eq (left n : Nat) (phase : Phase) :
    R.attempts spec work left n phase = R.round spec work n phase fun e =>
      afterFailure R spec work n e left := by
  cases left with
  | zero => rfl
  | succ left => rfl

/-- Attempt number `n` is the last one with this result: it was successful, its failure has no store
error or one that is not worth another attempt, or the budget is used up. -/
def Final (R : Runner (Action W)) (spec : RunSpec) (n : Nat) : Except ε α → Prop
  | .ok _ => True
  | .error e => (∀ s, TransactionFailure.storeError? e = some s → R.classify s = .fatal) ∨
      n = spec.budget

theorem classOf_eq_fatal_iff {e : ε} :
    R.classOf e = .fatal ↔ ∀ s, TransactionFailure.storeError? e = some s →
    R.classify s = .fatal := by
  unfold Runner.classOf
  cases TransactionFailure.storeError? e with
  | none => simp
  | some s => simp

section Failed

variable {n left : Nat} {e : ε}

/-- After a final failure the run gives up. -/
theorem afterFailure_of_final (hleft : n + left = spec.budget)
    (h : Final R spec n (.error e : Except ε α)) :
    afterFailure R spec work n e left = R.giveUp e := by
  cases left with
  | zero => rfl
  | succ left =>
    have hfatal : R.classOf e = .fatal := classOf_eq_fatal_iff.2 (h.resolve_right (by omega))
    simp only [afterFailure, hfatal]

/-- After any other failure it goes on, and has an attempt left for that. -/
theorem afterFailure_of_not_final (work : Handle → Action W (Except ε α)) (scope : Scope)
    (hleft : n + left = spec.budget) (h : ¬ Final R spec n (.error e : Except ε α)) :
    ∃ rest, n + 1 + rest = spec.budget ∧ afterFailure R spec work n e left scope =
      (R.observe .running .rolledBackRetry scope).bind fun _ => (R.pause n scope).bind fun _ =>
        R.attempts spec work rest (n + 1) .rolledBackRetry scope := by
  obtain ⟨hworth, hbudget⟩ := not_or.1 h
  cases left with
  | zero => exact absurd hleft hbudget
  | succ left =>
    refine ⟨left, by omega, ?_⟩
    cases hclass : R.classOf e with
    | fatal => exact absurd (classOf_eq_fatal_iff.1 hclass) hworth
    | retryable =>
      simp only [afterFailure, hclass]
      rfl

end Failed

/-! ### The rule for a run -/

section Rule

variable {μ : Type} {M : Program.Monitor (service W) μ} {I : μ → Prop} {Q : μ → Except ε α → Prop}
variable {P : Shared.Request W → Prop}

omit [TransactionFailure ε] in
/-- A program that a monitor takes no notice of. -/
theorem obeys_beside {β : Type} {p : Program (service W) β}
    {f : β → Program (service W) (Except ε α)} {m : μ} (haside : ∀ m r x, P r → M m (.call r x) m)
    (hwait : ∀ m, M m .wait m) (hp : p.All P) (hf : ∀ b, (f b).Obeys M Q m) :
    (p.bind f).Obeys M Q m := by
  refine (Program.Obeys.of_all hp (fun r x hr => haside m r x hr) (hwait m)).bind fun m' b hm' => ?_
  rw [hm']
  exact hf b

theorem pause_all (n : Nat) : (R.pause n scope).All P := by
  unfold Runner.pause
  split <;> trivial

omit [TransactionFailure ε] in
theorem pause_ends (n : Nat) (scope : Scope) : (R.pause n scope).Ends P fun _ => True := by
  unfold Runner.pause
  split <;> trivial

/-- A run that joins no other one obeys a monitor, if each of its attempts does, and if a failed
attempt leaves the monitor where another one may begin. -/
theorem obeys_run (haside : ∀ m r x, P r → M m (.call r x) m) (hwait : ∀ m, M m .wait m)
    (hobserve : ∀ a b scope, (R.observe a b scope).All P)
    (hattempt : ∀ n m, I m → (R.attempt (spec.context n) work scope).Obeys M Q m)
    (hretry : ∀ m e, Q m (.error e) → I m) (halone : Provenance.joins R scope = false) {m : μ}
    (hm : I m) :
    (R.run spec work scope).Obeys M Q m := by
  have hround : ∀ (failed : ε → Action W (Except ε α)) n phase m,
      (∀ m e, Q m (.error e) → (failed e scope).Obeys M Q m) → I m →
      (R.round spec work n phase failed scope).Obeys M Q m := by
    intro failed n phase m hfailed hm
    rw [round_eq]
    refine obeys_beside haside hwait (hobserve _ _ _) fun _ => ?_
    refine (hattempt n m hm).bind fun m' r hr => ?_
    cases r with
    | error e => exact hfailed m' e hr
    | ok a => exact obeys_beside haside hwait (hobserve _ _ _) fun _ => hr
  have hgiveUp : ∀ m e, Q m (.error e) → (R.giveUp e scope).Obeys M Q m :=
    fun m e he => obeys_beside haside hwait (hobserve _ _ _) fun _ => he
  have hattempts : ∀ left n phase m, I m →
      (R.attempts spec work left n phase scope).Obeys M Q m := by
    intro left
    induction left with
    | zero => exact fun n phase m hm => hround _ n phase m hgiveUp hm
    | succ left ih =>
      intro n phase m hm
      rw [attempts_eq]
      refine hround _ n phase m (fun m e he => ?_) hm
      rw [afterFailure]
      cases R.classOf e with
      | fatal => exact hgiveUp m e he
      | retryable =>
        refine obeys_beside haside hwait (hobserve _ _ _) fun _ => ?_
        exact obeys_beside haside hwait (pause_all n) fun _ => ih (n + 1) _ m (hretry m e he)
  rw [run_alone halone]
  exact hattempts _ _ _ m hm

end Rule

/-- The rule for a run alone, by a runner whose observer asks nothing: say where an attempt may
begin and what it does, what a final one means for the run, and what any other one means for the run
that goes on. -/
theorem run_yields {σ : Type} {answer : (r : Shared.Request W) → σ → Reply W r × σ}
    {G : Nat → σ → Prop} {T Q : Nat → σ → Except ε α → σ → Prop}
    (halone : Provenance.joins R scope = false)
    (hobserve : ∀ a b, (R.observe a b scope).Ends (fun _ => False) fun _ => True)
    (hattempt : ∀ n s, G n s → (R.attempt (spec.context n) work scope).Yields answer s (T n s))
    (hfinal : ∀ n s r s', G n s → T n s r s' → Final R spec n r → Q n s r s')
    (hmore : ∀ n s e s', G n s → T n s (.error e) s' → ¬ Final R spec n (.error e : Except ε α) →
      G (n + 1) s' ∧ ∀ r s'', Q (n + 1) s' r s'' → Q n s r s'')
    {s : σ} (hs : G 1 s) :
    (R.run spec work scope).Yields answer s (Q 1 s) := by
  have hattempts : ∀ left n phase s, n + left = spec.budget → G n s →
      (R.attempts spec work left n phase scope).Yields answer s (Q n s) := by
    intro left
    induction left using Nat.strongRecOn with
    | ind left ih =>
      intro n phase s hleft hs
      rw [attempts_eq, round_eq]
      refine .after_silent (hobserve phase .running) fun _ => ?_
      refine (hattempt n s hs).bind fun r s' hr => ?_
      cases r with
      | ok a =>
        exact .after_silent (hobserve .running .committed) fun _ =>
          .done (hfinal n s _ s' hs hr trivial)
      | error e =>
        show (afterFailure R spec work n e left scope).Yields answer s' (Q n s)
        by_cases hlast : Final R spec n (.error e : Except ε α)
        · rw [afterFailure_of_final hleft hlast]
          exact .after_silent (hobserve .running .rolledBackFatal) fun _ =>
            .done (hfinal n s _ s' hs hr hlast)
        · obtain ⟨rest, hrest, hafter⟩ := afterFailure_of_not_final work scope hleft hlast
          rw [hafter]
          refine .after_silent (hobserve .running .rolledBackRetry) fun _ => ?_
          refine .after_silent (pause_ends n scope) fun _ => ?_
          obtain ⟨hgo, hQ⟩ := hmore n s e s' hs hr hlast
          exact (ih rest (by omega) (n + 1) .rolledBackRetry s' hrest hgo).mono hQ
  have hbudget : 1 + (spec.budget - 1) = spec.budget := by
    have hpos : 1 ≤ spec.budget := Nat.le_max_right _ _
    omega
  rw [run_alone halone]
  exact hattempts _ 1 .started s hbudget hs

end Runs

/-! ### Attempts as they happened -/

/-- An attempt as it happened: no transaction could be begun for it, or its work was done in one,
with a result, and the commit or the rollback was answered. -/
inductive Attempt (W : Service) (ε α : Type) where
  | refused (context : TransactionContext) (e : StoreError)
  | worked (h : Handle) (work : List (Deed (service W))) (result : Except ε α)
      (reply : Except StoreError Unit)

namespace Attempt

/-- The handle that the work was given. -/
def handle? : Attempt W ε α → Option Handle
  | .refused _ _ => none
  | .worked h _ _ _ => some h

/-- The request for the end of the transaction, with its answer. -/
def ending (h : Handle) (reply : Except StoreError Unit) : Except ε α → Deed (service W)
  | .ok _ => .call (.database h.store (.commit h.tx)) reply
  | .error _ => .call (.database h.store (.rollback h.tx)) reply

/-- All that was done in the attempt, on a store. -/
def deeds (store : Nat) : Attempt W ε α → List (Deed (service W))
  | .refused context e => [.call (.database store (.begin context)) (.error e)]
  | .worked h work result reply =>
    .call (.database store (.begin h.context)) (.ok h.tx) :: (work ++ [ending h reply result])

/-- What came of it. -/
def result [TransactionFailure ε] : Attempt W ε α → Except ε α
  | .refused _ e => .error (TransactionFailure.ofStoreError e)
  | .worked _ _ (.ok a) (.ok _) => .ok a
  | .worked _ _ (.ok _) (.error e) => .error (TransactionFailure.ofStoreError e)
  | .worked _ _ (.error e) _ => .error e

/-- An attempt of some work on a store: what was done between begin and end is a path through the
work. -/
inductive Made (store : Nat) (work : Handle → Action W (Except ε α))
    (context : TransactionContext) :
    Attempt W ε α → Prop
  | refused (e : StoreError) : Made store work context (.refused context e)
  | worked (tx : Nat) (ds : List (Deed (service W))) (result : Except ε α)
    (reply : Except StoreError Unit)
    (hwork : (work ⟨store, tx, context⟩ (some ⟨store, tx, context⟩)).Takes ds (.done result)) :
    Made store work context (.worked ⟨store, tx, context⟩ ds result reply)

end Attempt

/-- The deeds of a run from attempt number `n` on, attempt by attempt, with its result. Between the
attempts nothing is asked of any database. Another attempt follows only one whose failure is worth
it. -/
inductive Ran [TransactionFailure ε] (R : Runner (Action W)) (spec : RunSpec)
    (work : Handle → Action W (Except ε α)) :
    Nat → List (Attempt W ε α) → List (Deed (service W)) → Except ε α → Prop
  | last {n : Nat} {t : Attempt W ε α} {before after : List (Deed (service W))}
    (ht : t.Made R.store work (spec.context n)) (hbefore : ∀ d ∈ before, d.Aside)
    (hafter : ∀ d ∈ after, d.Aside) :
    Ran R spec work n [t] (before ++ t.deeds R.store ++ after) t.result
  | more {n : Nat} {t : Attempt W ε α} {ts : List (Attempt W ε α)}
    {before between ds : List (Deed (service W))} {e : ε} {r : Except ε α}
    (ht : t.Made R.store work (spec.context n)) (hfailed : t.result = .error e)
    (hworth : R.classOf e = .retryable) (hbefore : ∀ d ∈ before, d.Aside)
    (hbetween : ∀ d ∈ between, d.Aside)
    (hrest : Ran R spec work (n + 1) ts ds r) :
    Ran R spec work n (t :: ts) (before ++ t.deeds R.store ++ between ++ ds) r

namespace Runs

variable [TransactionFailure ε] {R : Runner (Action W)} {spec : RunSpec}
variable {work : Handle → Action W (Except ε α)} {scope : Scope} {ds : List (Deed (service W))}
variable {r : Except ε α}

/-- The deeds of a program that asks no database. -/
theorem aside_of_takes {β : Type} {p q : Program (service W) β} (hp : p.All Request.Aside)
    (h : p.Takes ds q) :
    ∀ d ∈ ds, d.Aside := by
  induction h with
  | refl p => exact fun d hd => absurd hd List.not_mem_nil
  | @call r k x ds q _ ih =>
    refine List.forall_mem_cons.2 ⟨?_, ih (hp.2 x)⟩
    cases r with
    | database i r => exact hp.1.elim
    | _ => trivial
  | @timer k t ds q _ ih => exact List.forall_mem_cons.2 ⟨trivial, ih (hp t)⟩
  | @sleep n k ds q _ ih => exact List.forall_mem_cons.2 ⟨trivial, ih hp⟩

theorem attempt_of_takes (hR : Discreet R) {context : TransactionContext}
    (h : (R.attempt context work scope).Takes ds (.done r)) :
    ∃ t : Attempt W ε α, t.Made R.store work context ∧ ds = t.deeds R.store ∧ r = t.result := by
  rw [attempt_eq hR] at h
  obtain ⟨x, rest, rfl, hopened⟩ := h.of_call
  rcases x with e | tx
  · obtain ⟨rfl, hr⟩ := hopened.of_done
    cases hr
    exact ⟨.refused context e, .refused e, rfl, rfl⟩
  · obtain ⟨ds, v, rest, rfl, hwork, hfinish⟩ := hopened.of_bind
    rcases v with e | a
    · obtain ⟨y, rest, rfl, hdone⟩ := hfinish.of_call
      obtain ⟨rfl, hr⟩ := hdone.of_done
      cases hr
      exact ⟨.worked _ ds (.error e) y, .worked tx ds _ y hwork, rfl, rfl⟩
    · obtain ⟨y, rest, rfl, hdone⟩ := hfinish.of_call
      obtain ⟨rfl, hr⟩ := hdone.of_done
      rcases y with e | u
      · cases hr
        exact ⟨.worked _ ds (.ok a) (.error e), .worked tx ds _ _ hwork, rfl, rfl⟩
      · cases hr
        exact ⟨.worked _ ds (.ok a) (.ok u), .worked tx ds _ _ hwork, rfl, rfl⟩

/-- The deeds of a round: those of its attempt and of the observer, and of what follows a
failure. -/
theorem round_of_takes (hR : Discreet R) {n : Nat} {phase : Phase}
    {failed : ε → Action W (Except ε α)}
    (h : (R.round spec work n phase failed scope).Takes ds (.done r)) :
    ∃ before t rest, (∀ d ∈ before, d.Aside) ∧ Attempt.Made R.store work (spec.context n) t ∧
      ds = before ++ t.deeds R.store ++ rest ∧
      ((r = t.result ∧ ∀ d ∈ rest, d.Aside) ∨
        ∃ e, t.result = .error e ∧ (failed e scope).Takes rest (.done r)) := by
  rw [round_eq] at h
  obtain ⟨before, _, ds, rfl, hbefore, h⟩ := h.of_bind
  obtain ⟨ds, v, rest, rfl, hattempt, h⟩ := h.of_bind
  obtain ⟨t, ht, rfl, rfl⟩ := attempt_of_takes hR hattempt
  refine ⟨before, t, rest, aside_of_takes (hR.observes _ _ _) hbefore, ht, by simp, ?_⟩
  cases hv : t.result with
  | error e =>
    rw [hv] at h
    exact .inr ⟨e, rfl, h⟩
  | ok a =>
    rw [hv] at h
    obtain ⟨after, _, rest, rfl, hafter, h⟩ := h.of_bind
    obtain ⟨rfl, hr⟩ := h.of_done
    cases hr
    refine .inl ⟨rfl, ?_⟩
    rw [List.append_nil]
    exact aside_of_takes (hR.observes _ _ _) hafter

omit [TransactionFailure ε] in
theorem giveUp_of_takes (hR : Discreet R) {e : ε}
    (h : (R.giveUp (α := α) e scope).Takes ds (.done r)) :
    (∀ d ∈ ds, d.Aside) ∧ r = .error e := by
  obtain ⟨ds, _, rest, rfl, hds, h⟩ := Program.Takes.of_bind h
  obtain ⟨rfl, hr⟩ := h.of_done
  cases hr
  refine ⟨?_, rfl⟩
  rw [List.append_nil]
  exact aside_of_takes (hR.observes _ _ _) hds

/-- Attempts as they happened, by induction on how many more are allowed. -/
theorem ran_of_takes_attempts (hR : Discreet R) {left n : Nat} {phase : Phase}
    (h : (R.attempts spec work left n phase scope).Takes ds (.done r)) :
    ∃ ts, Ran R spec work n ts ds r := by
  induction left generalizing n phase ds with
  | zero =>
    rw [attempts_eq] at h
    obtain ⟨before, t, rest, hbefore, ht, rfl, ⟨rfl, hrest⟩ | ⟨e, he, h⟩⟩ := round_of_takes hR h
    · exact ⟨[t], .last ht hbefore hrest⟩
    · obtain ⟨hrest, rfl⟩ := giveUp_of_takes hR h
      exact ⟨[t], he ▸ .last ht hbefore hrest⟩
  | succ left ih =>
    rw [attempts_eq] at h
    obtain ⟨before, t, rest, hbefore, ht, rfl, ⟨rfl, hrest⟩ | ⟨e, he, h⟩⟩ := round_of_takes hR h
    · exact ⟨[t], .last ht hbefore hrest⟩
    · cases hclass : R.classOf e with
      | fatal =>
        simp only [afterFailure, hclass] at h
        obtain ⟨hrest, rfl⟩ := giveUp_of_takes hR h
        exact ⟨[t], he ▸ .last ht hbefore hrest⟩
      | retryable =>
        simp only [afterFailure, hclass] at h
        obtain ⟨told, _, rest, rfl, htold, h⟩ := Program.Takes.of_bind h
        obtain ⟨waited, _, rest, rfl, hwaited, h⟩ := Program.Takes.of_bind h
        obtain ⟨ts, hran⟩ := ih h
        refine ⟨t :: ts, ?_⟩
        have hbetween : ∀ d ∈ told ++ waited, d.Aside := by
          intro d hd
          rcases List.mem_append.1 hd with hd | hd
          · exact aside_of_takes (hR.observes _ _ _) htold d hd
          · exact aside_of_takes (pause_all n) hwaited d hd
        have hmore := Ran.more ht he hclass hbefore hbetween hran
        rwa [List.append_assoc _ (told ++ waited) rest, List.append_assoc told] at hmore

/-- **What a run did.** A run that joined no other one and has ended is a series of attempts. -/
theorem ran_of_takes (hR : Discreet R) (halone : Provenance.joins R scope = false)
    (h : (R.run spec work scope).Takes ds (.done r)) : ∃ ts, Ran R spec work 1 ts ds r := by
  rw [run_alone halone] at h
  exact ran_of_takes_attempts hR h

end Runs

end GuardedWrites

import GuardedWrites.Proofs.Effect.Acts
import GuardedWrites.Proofs.Effect.Yields
import GuardedWrites.Proofs.Transaction.Runs

/-!
# How often a run tries, and what it does in between

A run that joins no other one tries until an attempt is final: it was successful, or its failure is
not worth another one, or the budget is used up. Between two attempts it sleeps as long as the
backoff policy says, and it moves from phase to phase as the phases allow.

* `Runs.Leg`, `Runs.legs` — what a run does, given its attempts;
* `Runs.Series` — attempts of which only the last one is final;
* `Runs.tries_until_final` — every run does the legs of such a series, and comes to its end if its
  work does.
-/

namespace GuardedWrites

open Shared

variable {W : Service} {ε α : Type}

namespace Phase

/-- Where some moves lead to, if each of them begins where the one before has ended, and is
allowed. -/
def follow : Phase → List (Phase × Phase) → Option Phase
  | p, [] => some p
  | p, (old, new) :: rest => if old = p then (p.advance new).bind fun q => follow q rest else none

end Phase

namespace Runs

section Legs

variable [TransactionFailure ε]

/-- A leg of a run: a change of phase, an attempt, or a sleep. -/
inductive Leg (W : Service) (ε α : Type) where
  | moved (old new : Phase)
  | tried (t : Attempt W ε α)
  | slept (d : Span)

namespace Leg

/-- The change of phase. -/
def move? : Leg W ε α → Option (Phase × Phase)
  | moved old new => some (old, new)
  | _ => none

/-- The sleep. -/
def sleep? : Leg W ε α → Option Span
  | slept d => some d
  | _ => none

/-- A leg is done by some acts: a change of phase by those of the observer. -/
def Done (R : Runner (Action W)) (scope : Scope) : Leg W ε α → List (Act (service W)) → Prop
  | moved old new, as => (R.observe old new scope).Acts as ()
  | tried t, as => as.map Act.deed = t.deeds R.store
  | slept d, as => as = [.sleep d.ticks]

/-- Some legs are done one after another. -/
inductive DoneAll (R : Runner (Action W)) (scope : Scope) : List (Leg W ε α) →
    List (Act (service W)) → Prop
  | nil : DoneAll R scope [] []
  | cons {leg : Leg W ε α} {legs : List (Leg W ε α)} {as bs : List (Act (service W))}
    (h : leg.Done R scope as) (hrest : DoneAll R scope legs bs) :
    DoneAll R scope (leg :: legs) (as ++ bs)

end Leg

/-- How long a run without jitter sleeps after failed attempt number `n`, if it sleeps at all. -/
def rest (R : Runner (Action W)) (n : Nat) : List Span :=
  [R.backoff.baseFor n].filter fun d => !d.isZero

/-- The phase in which a run ends. -/
def lastPhase : Except ε α → Phase
  | .ok _ => .committed
  | .error _ => .rolledBackFatal

/-- The legs of a run with the given attempts, from attempt number `n` on. -/
def legs (R : Runner (Action W)) : Nat → Phase → List (Attempt W ε α) → List (Leg W ε α)
  | _, _, [] => []
  | _, phase, [t] => [.moved phase .running, .tried t, .moved .running (lastPhase t.result)]
  | n, phase, t :: u :: ts =>
    .moved phase .running :: .tried t :: .moved .running .rolledBackRetry ::
      ((rest R n).map .slept ++ legs R (n + 1) .rolledBackRetry (u :: ts))

/-- Attempts from number `n` on, of which only the last one is final, with its result. -/
inductive Series (R : Runner (Action W)) (spec : RunSpec) (work : Handle → Action W (Except ε α)) :
    Nat → List (Attempt W ε α) → Except ε α → Prop
  | last {n : Nat} {t : Attempt W ε α} (ht : t.Made R.store work (spec.context n))
    (hfinal : Final R spec n t.result) : Series R spec work n [t] t.result
  | more {n : Nat} {t : Attempt W ε α} {ts : List (Attempt W ε α)} {r : Except ε α}
    (ht : t.Made R.store work (spec.context n)) (hgo : ¬ Final R spec n t.result)
    (hrest : Series R spec work (n + 1) ts r) : Series R spec work n (t :: ts) r

end Legs

variable [TransactionFailure ε] {R : Runner (Action W)} {spec : RunSpec}
variable {work : Handle → Action W (Except ε α)}
variable {scope : Scope} {as bs : List (Act (service W))} {r : Except ε α} {n : Nat} {phase : Phase}
variable {t : Attempt W ε α} {ts : List (Attempt W ε α)}

/-! ### The legs of a series -/

namespace Series

theorem ne_nil (h : Series R spec work n ts r) : ts ≠ [] := by
  cases h <;> exact List.cons_ne_nil _ _

/-- Each attempt is made with its number, and is final exactly if it is the last one. -/
theorem getElem? (h : Series R spec work n ts r) (i : Nat) (hi : ts[i]? = some t) :
    t.Made R.store work (spec.context (n + i)) ∧
    (Final R spec (n + i) t.result ↔ i + 1 = ts.length) := by
  induction h generalizing i with
  | last ht hfinal =>
    cases i with
    | zero =>
      cases hi
      exact ⟨ht, fun _ => rfl, fun _ => hfinal⟩
    | succ i => cases hi
  | @more n u ts r ht hgo hrest ih =>
    cases i with
    | zero =>
      cases hi
      have hpos := List.length_pos_iff.2 hrest.ne_nil
      refine ⟨ht, fun hfinal => absurd hfinal hgo, fun hlast => ?_⟩
      rw [List.length_cons] at hlast
      omega
    | succ i =>
      have hn : n + (i + 1) = n + 1 + i := by omega
      rw [hn, List.length_cons, Nat.add_right_cancel_iff]
      exact ih i hi

/-- The result is that of the last attempt. -/
theorem getLast? (h : Series R spec work n ts r) : ts.getLast?.map Attempt.result = some r := by
  induction h with
  | last ht hfinal => rfl
  | more ht hgo hrest ih =>
    rw [List.getLast?_cons_of_ne_nil hrest.ne_nil]
    exact ih

/-- A run sleeps after each attempt but the last one. -/
theorem sleeps (h : Series R spec work n ts r) (phase : Phase) :
    (legs R n phase ts).filterMap Leg.sleep? =
      ((List.range (ts.length - 1)).map fun i => R.backoff.baseFor (n + i)).filter fun d =>
        !d.isZero := by
  induction h generalizing phase with
  | last ht hfinal => rfl
  | @more n t ts r ht hgo hrest ih =>
    obtain ⟨u, us, rfl⟩ := List.exists_cons_of_ne_nil hrest.ne_nil
    have hslept : ((rest R n).map (Leg.slept (W := W) (ε := ε) (α := α))).filterMap Leg.sleep? =
        rest R n := by
      rw [List.filterMap_map]
      exact List.filterMap_some
    have hlater : (fun i => R.backoff.baseFor (n + 1 + i)) =
        (fun i => R.backoff.baseFor (n + i)) ∘ Nat.succ :=
      funext fun i => congrArg R.backoff.baseFor (Nat.succ_add_eq_add_succ n i)
    have hrange : (List.range us.length).map (fun i => R.backoff.baseFor (n + 1 + i)) =
        ((List.range us.length).map Nat.succ).map fun i => R.backoff.baseFor (n + i) := by
      rw [hlater, List.map_map]
    have hsleeps := ih .rolledBackRetry
    rw [List.length_cons, Nat.add_sub_cancel, hrange] at hsleeps
    simp only [legs, List.filterMap_cons, Leg.sleep?, List.filterMap_append, hslept, hsleeps]
    rw [List.length_cons, Nat.add_sub_cancel, List.length_cons, List.range_succ_eq_map,
      List.map_cons, ← List.singleton_append, List.filter_append]
    rfl

/-- The moves of a run are allowed, and lead to its last phase. -/
theorem follow (h : Series R spec work n ts r) (hphase : phase.advance .running = some .running) :
    Phase.follow phase ((legs R n phase ts).filterMap Leg.move?) = some (lastPhase r) := by
  induction h generalizing phase with
  | @last n t ht hfinal =>
    have hlast : Phase.advance .running (lastPhase t.result) = some (lastPhase t.result) := by
      cases t.result <;> rfl
    simp only [legs, List.filterMap_cons, List.filterMap_nil, Leg.move?, Phase.follow, if_true,
      hphase, hlast, Option.bind_some]
  | @more n t ts r ht hgo hrest ih =>
    obtain ⟨u, us, rfl⟩ := List.exists_cons_of_ne_nil hrest.ne_nil
    have hslept :
        ((rest R n).map (Leg.slept (W := W) (ε := ε) (α := α))).filterMap Leg.move? = [] := by
      rw [List.filterMap_eq_nil_iff]
      intro leg hleg
      obtain ⟨d, -, rfl⟩ := List.mem_map.1 hleg
      rfl
    have hretry : Phase.advance .running .rolledBackRetry = some .rolledBackRetry := rfl
    simp only [legs, List.filterMap_cons, Leg.move?, List.filterMap_append, hslept,
      List.nil_append, Phase.follow, if_true, hphase, hretry, Option.bind_some]
    exact ih rfl

end Series

/-! ### The acts of a run -/

omit [TransactionFailure ε] in
theorem Leg.DoneAll.append {legs legs' : List (Leg W ε α)} (h : Leg.DoneAll R scope legs as)
    (h' : Leg.DoneAll R scope legs' bs) : Leg.DoneAll R scope (legs ++ legs') (as ++ bs) := by
  induction h with
  | nil => exact h'
  | @cons leg legs as cs h hrest ih =>
    rw [List.append_assoc]
    exact .cons h ih

/-- A run without jitter sleeps as long as the policy says. -/
theorem pause_eq (hj : (R.backoff.fraction == 0) = true) (n : Nat) (scope : Scope) :
    R.pause n scope =
      if (R.backoff.baseFor n).isZero
        then .done () else .sleep (R.backoff.baseFor n).ticks (.done ()) := by
  have hdelay : R.backoff.delay n (R.draw n) = R.backoff.baseFor n := by
    simp [BackoffPolicy.delay, hj]
  unfold Runner.pause
  rw [hdelay]
  cases (R.backoff.baseFor n).isZero <;> rfl

omit [TransactionFailure ε] in
theorem rest_of_acts (hj : (R.backoff.fraction == 0) = true) (h : (R.pause n scope).Acts as ()) :
    Leg.DoneAll R scope ((rest R n).map (Leg.slept (W := W) (ε := ε) (α := α))) as := by
  rw [pause_eq hj] at h
  cases hzero : (R.backoff.baseFor n).isZero with
  | true =>
    rw [hzero, if_pos rfl] at h
    obtain ⟨rfl, -⟩ := h.of_done
    simpa [rest, hzero] using Leg.DoneAll.nil
  | false =>
    rw [hzero, if_neg Bool.false_ne_true] at h
    obtain ⟨bs, rfl, hdone⟩ := h.of_sleep
    obtain ⟨rfl, -⟩ := hdone.of_done
    have hleg :
        (Leg.slept (R.backoff.baseFor n) : Leg W ε α).Done R scope
          [.sleep (R.backoff.baseFor n).ticks] := rfl
    simpa [rest, hzero] using Leg.DoneAll.cons hleg .nil

/-- The acts of a round: those of the observer and of an attempt, and what follows the attempt. -/
theorem round_of_acts (hR : Discreet R) {failed : ε → Action W (Except ε α)}
    (h : (R.round spec work n phase failed scope).Acts as r) :
    ∃ t told tried bs, as = told ++ (tried ++ bs) ∧ Attempt.Made R.store work (spec.context n) t ∧
      Leg.Done R scope (.moved phase .running : Leg W ε α) told ∧
      Leg.Done R scope (.tried t) tried ∧
      (settle R scope failed t.result).Acts bs r := by
  rw [round_eq] at h
  obtain ⟨told, _, as, rfl, htold, h⟩ := h.of_bind
  obtain ⟨tried, v, bs, rfl, htried, h⟩ := h.of_bind
  obtain ⟨t, ht, hdeeds, rfl⟩ := attempt_of_takes hR htried.takes
  exact ⟨t, told, tried, bs, rfl, ht, htold, hdeeds, h⟩

omit [TransactionFailure ε] in
/-- The acts of a run that tells its observer the last change of phase. -/
theorem told_of_acts {old new : Phase} {v : Except ε α}
    (h : ((R.observe old new scope).bind fun _ => Program.done v).Acts as r) :
    Leg.Done R scope (.moved old new : Leg W ε α) as ∧ r = v := by
  obtain ⟨as, _, bs, rfl, hold, h⟩ := h.of_bind
  obtain ⟨rfl, rfl⟩ := h.of_done
  rw [List.append_nil]
  exact ⟨hold, rfl⟩

/-- A run ends after a final attempt, whatever came of it. -/
theorem final_of_acts {told tried : List (Act (service W))} {left : Nat}
    (hleft : n + left = spec.budget) (ht : t.Made R.store work (spec.context n))
    (hfinal : Final R spec n t.result)
    (htold : Leg.Done R scope (.moved phase .running : Leg W ε α) told)
    (htried : Leg.Done R scope (.tried t) tried)
    (h : (settle R scope (fun e => afterFailure R spec work n e left) t.result).Acts as r) :
    ∃ ts, Series R spec work n ts r ∧ Leg.DoneAll R scope (legs R n phase ts)
      (told ++ (tried ++ as)) := by
  obtain ⟨hlast, rfl⟩ : Leg.Done R scope (.moved .running (lastPhase t.result) : Leg W ε α) as ∧
    r = t.result := by
    cases hresult : t.result with
    | ok a =>
      rw [hresult] at h
      exact told_of_acts h
    | error e =>
      rw [hresult] at h hfinal
      rw [settle, afterFailure_of_final hleft hfinal] at h
      exact told_of_acts h
  refine ⟨[t], .last ht hfinal, .cons htold (.cons htried ?_)⟩
  rw [← List.append_nil as]
  exact .cons hlast .nil

/-- The attempts of a run from number `n` on, by induction on how many more are allowed. -/
theorem series_of_acts (hR : Discreet R) (hj : (R.backoff.fraction == 0) = true) {left : Nat}
    (hleft : n + left = spec.budget) (h : (R.attempts spec work left n phase scope).Acts as r) :
    ∃ ts, Series R spec work n ts r ∧ Leg.DoneAll R scope (legs R n phase ts) as := by
  induction left using Nat.strongRecOn generalizing n phase as with
  | ind left ih =>
    rw [attempts_eq] at h
    obtain ⟨t, told, tried, bs, rfl, ht, htold, htried, h⟩ := round_of_acts hR h
    by_cases hfinal : Final R spec n t.result
    · exact final_of_acts hleft ht hfinal htold htried h
    cases hresult : t.result with
    | ok a =>
      rw [hresult] at hfinal
      exact absurd trivial hfinal
    | error e =>
      have hgo : ¬ Final R spec n (.error e : Except ε α) := hresult ▸ hfinal
      obtain ⟨more, hmore, hafter⟩ := afterFailure_of_not_final work scope hleft hgo
      rw [hresult, settle, hafter] at h
      obtain ⟨again, _, cs, rfl, hagain, h⟩ := h.of_bind
      obtain ⟨slept, _, ds, rfl, hslept, h⟩ := h.of_bind
      obtain ⟨ts, hseries, hlegs⟩ := ih more (by omega) hmore h
      refine ⟨t :: ts, .more ht hfinal hseries, ?_⟩
      obtain ⟨u, us, rfl⟩ := List.exists_cons_of_ne_nil hseries.ne_nil
      exact .cons htold (.cons htried (.cons hagain ((rest_of_acts hj hslept).append hlegs)))

/-! ### The end of a run -/

section Halts

variable (hR : Discreet R)
  (hwork : ∀ i tx, (work ⟨R.store, tx, spec.context i⟩ (some ⟨R.store, tx, spec.context i⟩)).Halts)

include hR hwork

theorem attempt_halts (n : Nat) : (R.attempt (spec.context n) work scope).Halts := by
  rw [attempt_eq hR]
  refine ⟨trivial, fun x => ?_⟩
  rcases x with e | tx
  · trivial
  · refine (hwork n tx).bind fun v _ => ?_
    cases v <;> exact ⟨trivial, fun _ => trivial⟩

variable (hobserve : ∀ a b, (R.observe a b scope).Halts)

include hobserve

theorem round_halts {failed : ε → Action W (Except ε α)} (hfailed : ∀ e, (failed e scope).Halts)
    (n : Nat) (phase : Phase) :
    (R.round spec work n phase failed scope).Halts := by
  rw [round_eq]
  refine (hobserve phase .running).bind fun _ _ => ?_
  refine (attempt_halts hR hwork n).bind fun v _ => ?_
  cases v with
  | ok a => exact (hobserve .running .committed).bind fun _ _ => trivial
  | error e => exact hfailed e

/-- By induction on how many more attempts are allowed. -/
theorem attempts_halts (left n : Nat) (phase : Phase) :
    (R.attempts spec work left n phase scope).Halts := by
  have hgiveUp : ∀ e : ε, (R.giveUp (α := α) e scope).Halts :=
    fun e => (hobserve .running .rolledBackFatal).bind fun _ _ => trivial
  induction left generalizing n phase with
  | zero => exact round_halts hR hwork hobserve hgiveUp n phase
  | succ left ih =>
    rw [attempts_eq]
    refine round_halts hR hwork hobserve (fun e => ?_) n phase
    rw [afterFailure]
    cases R.classOf e with
    | fatal => exact hgiveUp e
    | retryable =>
      refine (hobserve .running .rolledBackRetry).bind fun _ _ => ?_
      exact (pause_ends n scope).bind fun _ _ => ih (n + 1) .rolledBackRetry

end Halts

/-- **How often a run tries.** A run that joins no other one, by a backoff policy without jitter,
tries until an attempt is final, and its result is that of the last attempt. Attempt number `i` is
begun with the context of that number. What the run does are its legs and nothing else. So it sleeps
between the attempts, for as long as the policy says after each of them, and its moves from phase to
phase are allowed and lead to a last phase. And it does come to its end, if its work and its
observer do. -/
theorem tries_until_final (hR : Discreet R) (hj : (R.backoff.fraction == 0) = true) (spec : RunSpec)
    (work : Handle → Action W (Except ε α)) (scope : Scope)
    (halone : Provenance.joins R scope = false) :
    ((∀ a b, (R.observe a b scope).Halts) →
      (∀ i tx, (work ⟨R.store, tx, spec.context i⟩ (some ⟨R.store, tx, spec.context i⟩)).Halts) →
      (R.run spec work scope).Halts) ∧
    ∀ as r, (R.run spec work scope).Acts as r → ∃ ts : List (Attempt W ε α),
      (∀ i t, ts[i]? = some t → t.Made R.store work (spec.context (i + 1)) ∧
        (Final R spec (i + 1) t.result ↔ i + 1 = ts.length)) ∧
      ts.getLast?.map Attempt.result = some r ∧ Leg.DoneAll R scope (legs R 1 .started ts) as ∧
      (legs R 1 .started ts).filterMap Leg.sleep? =
        ((List.range (ts.length - 1)).map fun i => R.backoff.baseFor (i + 1)).filter
          (fun d => !d.isZero) ∧
      ∃ last, Phase.follow .started ((legs R 1 .started ts).filterMap Leg.move?) = some last ∧
        last.isTerminal = true := by
  rw [run_alone halone]
  refine ⟨fun hobserve hwork => attempts_halts hR hwork hobserve _ 1 .started, fun as r h => ?_⟩
  have hbudget : 1 + (spec.budget - 1) = spec.budget := by
    have hpos : 1 ≤ spec.budget := Nat.le_max_right _ _
    omega
  obtain ⟨ts, hseries, hlegs⟩ := series_of_acts hR hj hbudget h
  refine ⟨ts, fun i t hi => ?_, hseries.getLast?, hlegs, ?_, lastPhase r, hseries.follow rfl, ?_⟩
  · have hti := hseries.getElem? i hi
    rwa [Nat.add_comm 1 i] at hti
  · simp only [hseries.sleeps .started, Nat.add_comm 1]
  · cases r <;> rfl

/-- The service of an observer that writes down every change of phase. -/
abbrev Diary : Service := ⟨Phase × Phase, fun _ => Unit⟩

/-- A runner on one store, with the usual classes, whose sleeps begin with 25 ms. -/
def diligent : Runner (Action Diary) where
  store := 0
  ask r _ := .ask (S := service Diary) (.database 0 r)
  classify e := if e.code.isSome then .retryable else .fatal
  backoff := ⟨.ofMillis 25, .ofSecs 1, 0⟩
  draw _ := 0
  observe old new _ := .ask (S := service Diary) (.other (old, new))

/-- Work that updates a row and returns 7. -/
def patchOnce (h : Handle) : Action Diary (Except Failure UInt8) := fun scope =>
  (diligent.update h "t" "a" [] none scope).bind fun _ => .done (.ok 7)

/-- A run whose first commit meets a deadlock, whose second transaction cannot be begun, and whose
third is committed. -/
def twoConflicts : List (Act (service Diary)) :=
  let deadlock : StoreError := ⟨some StoreError.deadlockCode, ""⟩
  [.call (.other (.started, .running)) (),
    .call (.database 0 (.begin (RunSpec.standard.context 1))) (.ok 0),
    .call (.database 0 (.update 0 "t" "a" [] none)) (.ok 1),
    .call (.database 0 (.commit 0)) (.error deadlock),
    .call (.other (.running, .rolledBackRetry)) (), .sleep 25,
    .call (.other (.rolledBackRetry, .running)) (),
    .call (.database 0 (.begin (RunSpec.standard.context 2))) (.error deadlock),
    .call (.other (.running, .rolledBackRetry)) (), .sleep 50,
    .call (.other (.rolledBackRetry, .running)) (),
    .call (.database 0 (.begin (RunSpec.standard.context 3))) (.ok 1),
    .call (.database 0 (.update 1 "t" "a" [] none)) (.ok 1),
    .call (.database 0 (.commit 1)) (.ok ()), .call (.other (.running, .committed)) ()]

/-- After a conflict the run sleeps and goes on. -/
theorem again_acts (n left : Nat) {d : Nat} {as : List (Act (service Diary))}
    (hn : (diligent.backoff.baseFor n).isZero = false) (hd : (diligent.backoff.baseFor n).ticks = d)
    (h : (diligent.attempts .standard patchOnce left (n + 1) .rolledBackRetry none).Acts as
      (.ok 7)) :
    (afterFailure diligent .standard patchOnce n (.store ⟨some StoreError.deadlockCode, ""⟩)
      (left + 1) none).Acts
      (.call (.other (.running, .rolledBackRetry)) () :: .sleep d :: as) (.ok 7) := by
  refine .call _ ?_
  show ((diligent.pause n none).bind _).Acts _ _
  rw [pause_eq (by decide), hn, hd]
  exact .sleep h

/-- Three attempts, the second of which has no transaction, and sleeps of 25 ms and 50 ms between
them. -/
theorem tries_until_final_twoConflicts :
    let ran := diligent.run .standard patchOnce none
    Discreet diligent ∧ (diligent.backoff.fraction == 0) = true ∧
    Provenance.joins diligent none = false ∧ ran.Halts ∧
      ran.Acts twoConflicts (.ok 7) ∧ ∃ ts : List (Attempt Diary Failure UInt8),
        (∀ i t, ts[i]? = some t → t.Made 0 patchOnce (RunSpec.standard.context (i + 1)) ∧
          (Final diligent .standard (i + 1) t.result ↔ i + 1 = ts.length)) ∧
        ts.getLast?.map Attempt.result = some (.ok 7) ∧
        Leg.DoneAll diligent none (legs diligent 1 .started ts) twoConflicts := by
  intro ran
  have hR : Discreet diligent := ⟨fun _ _ => rfl, fun _ _ _ => ⟨trivial, fun _ => trivial⟩⟩
  have hj : (diligent.backoff.fraction == 0) = true := by decide
  have hacts : ran.Acts twoConflicts (.ok 7) := by
    refine .call _ (.call _ (.call _ (.call _ ?_)))
    refine again_acts 1 1 rfl (by decide) ?_
    refine .call _ (.call _ ?_)
    refine again_acts 2 0 rfl (by decide) ?_
    exact .call _ (.call _ (.call _ (.call _ (.call _ (.done _)))))
  obtain ⟨hends, htries⟩ := tries_until_final hR hj .standard patchOnce none rfl
  obtain ⟨ts, hmade, hlast, hlegs, -⟩ := htries _ _ hacts
  have hhalts : ran.Halts := by
    refine hends (fun _ _ => ⟨trivial, fun _ => trivial⟩) ?_
    exact fun _ _ => ⟨trivial, fun _ => trivial⟩
  exact ⟨hR, hj, rfl, hhalts, hacts, ts, hmade, hlast, hlegs⟩

end Runs

end GuardedWrites

import GuardedWrites.Proofs.Effect.Schedule
import GuardedWrites.Rate.Limiter

/-!
# What a limiter asks for

A limiter asks its own state and the remote store, and nothing else: what all their requests have in
common, all requests of a check have.

* `Limiter.Asks` — a property of every request that a limiter can make;
* `Limiter.Asks.enforce` — it holds throughout a check.
-/

namespace GuardedWrites

namespace Limiter

variable {ν : Type} {S : Service} {E : Type}

/-- Every request of the limiter's own services has a property. -/
structure Asks (P : S.Request → Prop) (L : Limiter ν (ReaderT E (Program S))) : Prop where
  own : ∀ r e, (L.own r e).All P
  remote : ∀ remote, L.remote = some remote → ∀ r e, (remote r e).All P

variable {P : S.Request → Prop} {L : Limiter ν (ReaderT E (Program S))}

theorem Asks.settle {α : Type} (h : L.Asks P) (r : Except BackendError α) (e : E) :
    (L.settle r e).All P := by
  cases r with
  | ok a => exact (h.own .remoteAnswered e).bind fun _ => trivial
  | error x => exact (h.own .remoteFailed e).bind fun _ => trivial

theorem all_bounded {α : Type} {call : ReaderT E (Program S) (Except BackendError α)} {e : E}
    (h : (call e).All P) : (L.bounded call e).All P := by
  have hcut : (Timed.within L.settings.config.remoteTimeout call e : Program S _).All P :=
    fun now => h.cutAt _
  refine hcut.bind fun x => ?_
  cases x <;> trivial

variable [Amount ν]

theorem Asks.evaluate (h : L.Asks P) (key : String) (rule : Rule ν) (now : Moment) (e : E) :
    (L.evaluate key rule now e).All P := by
  unfold Limiter.evaluate Limiter.remoteNow
  cases hr : L.remote with
  | none => exact h.own _ e
  | some remote =>
    show (((L.own .remoteAllowed e).bind _).bind _).All P
    rw [Program.bind_assoc]
    refine (h.own .remoteAllowed e).bind fun granted => ?_
    cases granted with
    | false => exact h.own _ e
    | true =>
      refine (all_bounded (h.remote remote hr _ e)).bind fun x => ?_
      refine (h.settle x e).bind fun y => ?_
      cases y with
      | none => exact h.own _ e
      | some o => trivial

theorem Asks.judgeAll (h : L.Asks P) (key : String) (now : Moment) (e : E) (rules : List (Rule ν))
    (remaining : Nat) : (L.judgeAll key now remaining rules e).All P := by
  induction rules generalizing remaining with
  | nil => exact (h.own .checkAllowed e).bind fun _ => trivial
  | cons rule rest ih =>
    refine (h.evaluate key rule now e).bind fun outcome => ?_
    by_cases ho : outcome.allowed = true
    · simp only [ho, if_true]
      exact ih _
    · simp only [ho]
      exact (h.own .checkThrottled e).bind fun _ => trivial

/-- Every request of a check has the property. -/
theorem Asks.enforce (h : L.Asks P) (key : String) (rules : List (Rule ν)) (e : E) :
    (L.enforce key rules e).All P := by
  have hcheck : (L.check key rules e).All P := by
    unfold Limiter.check
    cases Rule.firstFault? rules with
    | some fault => trivial
    | none =>
      refine (h.own .checkStarted e).bind fun _ => ?_
      refine (h.own .now e).bind fun now => ?_
      exact (h.judgeAll key now e rules _).bind fun _ => trivial
  refine hcheck.bind fun r => ?_
  cases r <;> trivial

end Limiter

end GuardedWrites

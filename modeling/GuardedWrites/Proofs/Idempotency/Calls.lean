import GuardedWrites.Idempotency.Guard
import GuardedWrites.Proofs.Effect.Shared

/-!
# The calls of a guard, step by step

The operations of a guard, written out as the trees of what they ask for.

* `ResultCodec.RoundTrips` — a result that can be read back;
* `IdempotencyGuard.reading` — the same guard for actions that also read something;
* `Shared.guard` — a guard on the records that programs share;
* `IdempotencyGuard.verdict` — what a look-up decides about a call;
* `Shared.execute_eq`, `Shared.executeExclusive_eq`, `Shared.runClaimed_eq`,
  `Shared.storeCompleted_eq`.
-/

namespace GuardedWrites

/-- A result that can be read back from what it is stored as. -/
def ResultCodec.RoundTrips {ρ : Type} (codec : ResultCodec ρ) (a : ρ) : Prop :=
  ∃ bytes, codec.encode a = some bytes ∧ codec.decode bytes = some a

namespace IdempotencyGuard

variable {ρ : Type}

/-- The result that a look-up found, if the operation completed. -/
def found (codec : ResultCodec ρ) :
    Except BackendError (Option IdempotencyRecord) → Except Failure (Option ρ)
  | .error e => .error (.backend e)
  | .ok none => .ok none
  | .ok (some r) =>
    if r.isCompleted then
      match codec.decode r.result with
      | some a => .ok (some a)
      | none => .error (.codec "the stored result cannot be decoded")
    else .ok none

/-- How a call ends after a look-up. It goes on, which is none, if the operation has not
completed. -/
def verdict (codec : ResultCodec ρ) (x : Except BackendError (Option IdempotencyRecord)) :
    Option (Except Failure (Execution ρ)) :=
  match found codec x with
  | .error e => some (.error e)
  | .ok (some a) => some (.ok ⟨false, a⟩)
  | .ok none => none

/-- A completed record ends a call, without running its operation. -/
theorem verdict_completed (codec : ResultCodec ρ) {r : IdempotencyRecord}
    (h : r.isCompleted = true) :
    ∃ v, verdict codec (.ok (some r)) = some v ∧ ∀ x, v = .ok x → x.wasExecuted = false := by
  simp only [verdict, found, h, if_true]
  cases codec.decode r.result with
  | none => exact ⟨_, rfl, by simp⟩
  | some a =>
    refine ⟨_, rfl, fun x hx => ?_⟩
    cases hx
    rfl

theorem verdict_decodes {codec : ResultCodec ρ} {r : IdempotencyRecord} (h : r.isCompleted = true)
    {a : ρ} (ha : codec.decode r.result = some a) :
    verdict codec (.ok (some r)) = some (.ok ⟨false, a⟩) := by
  simp [verdict, found, h, ha]

/-! ### Actions that also read something -/

section Reading

variable {m : Type → Type} {σ : Type}

/-- The same guard for actions that also read something. -/
def reading (g : IdempotencyGuard m) : IdempotencyGuard (ReaderT σ m) :=
  ⟨g.config, fun r _ => g.records r, fun _ => g.now⟩

variable [Monad m] (g : IdempotencyGuard m) (codec : ResultCodec ρ) (s : σ)

theorem replay_reading (rk : String) : g.reading.replay codec rk s = g.replay codec rk := by
  refine congrArg (g.records (.get rk) >>= ·) (funext fun x => ?_)
  rcases x with e | _ | r
  · rfl
  · rfl
  · show (if r.isCompleted then _ else _ : ReaderT σ m (Except Failure (Option ρ))) s =
      (if r.isCompleted then _ else _)
    split
    · cases codec.decode r.result <;> rfl
    · rfl

theorem storeCompleted_reading (rk : String) (a : ρ) :
    g.reading.storeCompleted codec rk a s = g.storeCompleted codec rk a := by
  unfold storeCompleted
  cases codec.encode a <;> rfl

/-- What is read, only the operation sees. -/
theorem execute_reading (key : String) (op : ReaderT σ m (Except Failure ρ)) :
    g.reading.execute codec key op s = g.execute codec key (op s) := by
  show g.reading.replay codec (g.recordKey key) s >>= _ = g.replay codec (g.recordKey key) >>= _
  rw [replay_reading]
  refine congrArg (g.replay codec (g.recordKey key) >>= ·) (funext fun x => ?_)
  rcases x with e | _ | a
  · rfl
  · refine congrArg (op s >>= ·) (funext fun r => ?_)
    cases r with
    | error e => rfl
    | ok a =>
      show g.reading.storeCompleted codec (g.recordKey key) a s >>= _ =
        g.storeCompleted codec (g.recordKey key) a >>= _
      rw [storeCompleted_reading]
      rfl
  · rfl

end Reading

end IdempotencyGuard

namespace Shared

open IdempotencyGuard (found verdict)

variable (W : Service) (config : IdempotencyConfig) {ρ : Type} (codec : ResultCodec ρ)

/-- A guard on the records that programs share. -/
def guard : IdempotencyGuard (Program (service W)) :=
  ⟨config, fun r => .ask (S := service W) (.records r), .ask (S := service W) .now⟩

theorem replay_eq (rk : String) :
    (guard W config).replay codec rk = .call (.records (.get rk)) fun x =>
      .done (found codec x) := by
  refine congrArg (Program.call (S := service W) (.records (.get rk))) (funext fun x => ?_)
  rcases x with e | _ | r
  · rfl
  · rfl
  · show (if r.isCompleted then _ else _ : Program (service W) (Except Failure (Option ρ))) =
      .done (if _ then _ else _)
    split
    · cases codec.decode r.result <;> rfl
    · rfl

/-- The end of a call whose operation succeeded. -/
def store (rk : String) (a : ρ) : Program (service W) (Except Failure (Execution ρ)) :=
  match codec.encode a with
  | none => .done (.ok ⟨true, a⟩)
  | some bytes => .call .now fun t =>
    .call (.records (.put (.completed rk bytes t) config.recordTtl)) fun _ => .done (.ok ⟨true, a⟩)

/-- The end of an exclusive call after its operation. -/
def settle (rk : String) : Except Failure ρ → Program (service W) (Except Failure (Execution ρ))
  | .ok a => store W config codec rk a
  | .error e => .call (.records (.remove rk)) fun _ => .done (.error e)

/-- The second look-up of an exclusive call, whose claim was refused. -/
def lookAgain (key : String) : Program (service W) (Except Failure (Execution ρ)) :=
  .call (.records (.get ((guard W config).recordKey key))) fun x =>
    .done ((verdict codec x).getD (.error (.inProgress key)))

/-- An exclusive call from its claim on, with the time that it has read for the marker. -/
def claim (key : String) (op : Program (service W) (Except Failure ρ)) (m : Moment) :
    Program (service W) (Except Failure (Execution ρ)) :=
  .call (.records (.putIfAbsent (.pending ((guard W config).recordKey key) m) config.lockTtl)) fun
    | .error e => .done (.error (.backend e))
    | .ok true => (guard W config).runClaimed codec ((guard W config).recordKey key) op
    | .ok false => lookAgain W config codec key

theorem storeCompleted_eq (rk : String) (a : ρ) :
    ((guard W config).storeCompleted codec rk a).bind (fun _ => .done (.ok ⟨true, a⟩)) =
      store W config codec rk a := by
  unfold IdempotencyGuard.storeCompleted store
  cases codec.encode a <;> rfl

theorem runClaimed_eq (rk : String) (op : Program (service W) (Except Failure ρ)) :
    (guard W config).runClaimed codec rk op = op.bind (settle W config codec rk) := by
  refine congrArg (Program.bind op) (funext fun x => ?_)
  cases x with
  | error e => rfl
  | ok a => exact storeCompleted_eq W config codec rk a

theorem execute_eq (key : String) (op : Program (service W) (Except Failure ρ)) :
    (guard W config).execute codec key op =
      .call (.records (.get ((guard W config).recordKey key))) fun x =>
        match verdict codec x with
        | some v => .done v
        | none => op.bind fun
          | .error e => .done (.error e)
          | .ok a => store W config codec ((guard W config).recordKey key) a := by
  unfold IdempotencyGuard.execute
  rw [replay_eq]
  refine congrArg (Program.call (S := service W) _) (funext fun x => ?_)
  simp only [verdict]
  rcases found codec x with e | _ | a
  · rfl
  · refine congrArg (Program.bind op) (funext fun y => ?_)
    cases y with
    | error e => rfl
    | ok a => exact storeCompleted_eq W config codec _ a
  · rfl

theorem executeExclusive_eq (key : String) (op : Program (service W) (Except Failure ρ)) :
    (guard W config).executeExclusive codec key op =
      .call (.records (.get ((guard W config).recordKey key))) fun x =>
        match verdict codec x with
        | some v => .done v
        | none => .call .now fun m => claim W config codec key op m := by
  unfold IdempotencyGuard.executeExclusive
  rw [replay_eq]
  refine congrArg (Program.call (S := service W) _) (funext fun x => ?_)
  simp only [verdict]
  rcases found codec x with e | _ | a
  · rfl
  · refine congrArg (Program.call (S := service W) _) (funext fun m => ?_)
    refine congrArg (Program.call (S := service W) _) (funext fun y => ?_)
    rcases y with e | _ | _
    · rfl
    · simp only [lookAgain, verdict]
      refine congrArg (Program.call (S := service W) _) (funext fun z => ?_)
      dsimp only
      rcases found codec z with e | _ | a <;> rfl
    · rfl
  · rfl

variable {W config codec} {home : Nat → Nat} {o : Circumstances W} {s : Shared} {key : String}
variable {m : Moment}
variable {op : Program (service W) (Except Failure ρ)}

theorem next?_claim_of_free (h : s.records.live? o.now ((guard W config).recordKey key) = none) :
    (claim W config codec key op m).next? (setting home) o s =
      some (.call
          (.records (.putIfAbsent (.pending ((guard W config).recordKey key) m) config.lockTtl))
          (.ok true),
        (guard W config).runClaimed codec ((guard W config).recordKey key) op,
        { s with
          records := s.records.put o.now (.pending ((guard W config).recordKey key) m)
            config.lockTtl }) := by
  have hr :
      s.records.step o.now
          (.putIfAbsent (.pending ((guard W config).recordKey key) m) config.lockTtl) =
        (true, s.records.put o.now (.pending ((guard W config).recordKey key) m) config.lockTtl) :=
    Records.step_putIfAbsent_of_free h
  unfold claim
  simp only [Program.next?, setting_records]
  rw [hr]

theorem next?_claim_of_taken {x : StoredRecord}
    (h : s.records.live? o.now ((guard W config).recordKey key) = some x) :
    (claim W config codec key op m).next? (setting home) o s =
      some (.call
          (.records (.putIfAbsent (.pending ((guard W config).recordKey key) m) config.lockTtl))
          (.ok false),
        lookAgain W config codec key, s) := by
  have hr :
      s.records.step o.now
          (.putIfAbsent (.pending ((guard W config).recordKey key) m) config.lockTtl) =
        (false, s.records) := Records.step_putIfAbsent_of_taken h
  unfold claim
  simp only [Program.next?, setting_records]
  rw [hr]

/-- A call that finds a completed record is over at once, and changes nothing. -/
theorem next?_execute_of_found {x : StoredRecord} {v : Except Failure (Execution ρ)}
    (h : s.records.live? o.now ((guard W config).recordKey key) = some x)
    (hv : verdict codec (.ok (some x.record)) = some v) :
    ((guard W config).execute codec key op).next? (setting home) o s =
      some (.call (.records (.get ((guard W config).recordKey key))) (.ok (some x.record)),
        .done v, s) := by
  have hr := Records.step_get_of_alive h
  rw [execute_eq]
  simp only [Program.next?, setting_records]
  rw [hr]
  simp only [hv]

theorem next?_executeExclusive_of_found {x : StoredRecord} {v : Except Failure (Execution ρ)}
    (h : s.records.live? o.now ((guard W config).recordKey key) = some x)
    (hv : verdict codec (.ok (some x.record)) = some v) :
    ((guard W config).executeExclusive codec key op).next? (setting home) o s =
      some (.call (.records (.get ((guard W config).recordKey key))) (.ok (some x.record)),
        .done v, s) := by
  have hr := Records.step_get_of_alive h
  rw [executeExclusive_eq]
  simp only [Program.next?, setting_records]
  rw [hr]
  simp only [hv]

/-- An exclusive call that finds no record goes on to stamp its marker. -/
theorem next?_executeExclusive_of_absent
    (h : s.records.table.get? ((guard W config).recordKey key) = none) :
    ((guard W config).executeExclusive codec key op).next? (setting home) o s =
      some (.call (.records (.get ((guard W config).recordKey key))) (.ok none),
        .call .now fun m => claim W config codec key op m, s) := by
  have hr : s.records.step o.now (.get ((guard W config).recordKey key)) = (none, s.records) :=
    Records.step_get_of_absent h
  rw [executeExclusive_eq]
  simp only [Program.next?, setting_records]
  rw [hr]
  rfl

theorem wasCompleted_eq (key : String) :
    (guard W config).wasCompleted key = .call (.records (.get ((guard W config).recordKey key))) fun
      | .error e => .done (.error (.backend e))
      | .ok r => .done (.ok (r.any IdempotencyRecord.isCompleted)) := by
  refine congrArg (Program.call (S := service W) (.records (.get _))) (funext fun x => ?_)
  cases x <;> rfl

/-- Whether the operation completed, as it is answered at a state. -/
theorem next?_wasCompleted (config : IdempotencyConfig) (home : Nat → Nat) (o : Circumstances W)
    (s : Shared) (key : String) :
    ∃ d s', ((guard W config).wasCompleted key).next? (setting home) o s =
      some (d, .done (.ok ((s.records.live? o.now ((guard W config).recordKey key)).any fun x =>
        x.record.isCompleted)), s') := by
  have hr := s.records.step_get o.now ((guard W config).recordKey key)
  rw [wasCompleted_eq]
  refine ⟨_, _, congrArg some (Prod.ext rfl (Prod.ext ?_ rfl))⟩
  simp only [setting_records]
  rw [hr, Option.any_map]

end Shared

end GuardedWrites

import GuardedWrites.Proofs.Idempotency.Calls
import GuardedWrites.Proofs.Mutation.RunEffects
import GuardedWrites.Proofs.Transaction.Backing

/-!
# The course of a guarded mutation

Limiter, records, runner and database together: what one guarded mutation does that is made outside
any transaction.

* `Pipeline.serve` — a mutation with what came of it;
* `Pipeline.Stored` — the result of a key, as the records have it;
* `Pipeline.Course` — what a mutation can do: it is refused, replayed, fails, or commits;
* `Pipeline.serve_course` — it does one of these.
-/

namespace GuardedWrites

open Shared

variable {ν ρ : Type}

/-- What mutations are guarded by. -/
def Parts.mutationGuard (P : Parts ν) : MutationGuard ν (Action (Outside ν)) :=
  ⟨P.limiter, P.rules, some (guard _ P.config).reading, P.runner⟩

/-- The key that the record of a key is stored under. -/
abbrev Parts.recordKey (P : Parts ν) (key : String) : String :=
  (guard (Outside ν) P.config).recordKey key

section Log

variable {W : Service}

/-- The record that a deed has stored, and how long it lives. -/
def Deed.put? : Deed (service W) → Option StoredRecord
  | .call (.records (.put r ttl)) _ => some ⟨r, ttl⟩
  | _ => none

/-- What one deed has stored is alive at another one. -/
def Outlives (x y : Moment × Deed (service W)) : Prop := ∀ r ∈ x.2.put?, r.isExpired y.1 = false

/-- As long as a log goes, nothing that was stored is past its time. -/
def NoneExpires (log : List (Moment × Deed (service W))) : Prop :=
  (∀ x ∈ log, Outlives x x) ∧ log.Pairwise Outlives

instance (x y : Moment × Deed (service W)) : Decidable (Outlives x y) :=
  inferInstanceAs (Decidable (∀ r ∈ x.2.put?, r.isExpired y.1 = false))

instance (log : List (Moment × Deed (service W))) : Decidable (NoneExpires log) :=
  inferInstanceAs (Decidable ((∀ x ∈ log, Outlives x x) ∧ log.Pairwise Outlives))

theorem NoneExpires.earlier {log log' : List (Moment × Deed (service W))} (h : NoneExpires log')
    (hlog : log <+: log') : NoneExpires log := by
  obtain ⟨more, rfl⟩ := hlog
  exact ⟨fun x hx => h.1 x (List.mem_append_left _ hx), (List.pairwise_append.1 h.2).1⟩

end Log

namespace Pipeline

open Parts

/-- A call: a mutation, its work, which uses nothing but its handle, and what the timer shows at
first. -/
structure Call (ν ρ : Type) where
  mutation : Mutation
  work : Handle → Action (Outside ν) (Except Failure ρ)
  uses : ∀ h, (work h (some h)).Ends h.Serves fun _ => True
  timer : Nat

/-- The key that a call is deduplicated by. -/
def Call.key? (c : Call ν ρ) : Option String := c.mutation.idempotencyKey

/-- A call with the world before it, what it returned, if it did, and the world after it. -/
structure Entry (ν ρ : Type) where
  call : Call ν ρ
  before : World ν
  result : Option (Except Failure (Execution ρ))
  after : World ν

variable [Amount ν] (P : Parts ν) (codec : String → ResultCodec ρ)

/-- What a call does, with one way to store results for each key. -/
def Call.program (c : Call ν ρ) : Program (service (Outside ν)) (Except Failure (Execution ρ)) :=
  P.mutationGuard.execute (codec (c.key?.getD "")) c.mutation (announcedWork c.work) none

/-- Runs a call from its first step to its last. -/
def serve (w : World ν) (c : Call ν ρ) : Entry ν ρ :=
  let x := (c.program P codec).run P.answer w c.timer
  ⟨c, w, x.1, x.2.1⟩

/-- What the limiter says of a call. -/
def Entry.verdict (e : Entry ν ρ) : Option (Except Failure Verdict) :=
  ((P.limiter.enforce e.call.mutation.rateKey P.rules none).run P.answer e.before e.call.timer).1

/-- The limiter denies a call. -/
def Entry.Throttled (e : Entry ν ρ) : Prop :=
  ∃ secs, e.verdict P = some (.error (.rateLimitExceeded secs))

/-- The limiter lets a call pass. -/
def Entry.Passes (e : Entry ν ρ) : Prop := ∃ v, e.verdict P = some (.ok v)

/-! ### The text of a call -/

/-- A call that the limiter lets pass. -/
def Call.passed (c : Call ν ρ) : Program (service (Outside ν)) (Except Failure (Execution ρ)) :=
  let transaction := P.runner.run c.mutation.spec (announcedWork c.work) none
  match c.key? with
  | none => transaction.bind fun r => .done (r.map (⟨true, ·⟩))
  | some key => (guard (Outside ν) P.config).execute (codec key) key transaction

/-- A call after the limiter has spoken. -/
def Call.judged (c : Call ν ρ) :
    Except Failure Verdict → Program (service (Outside ν)) (Except Failure (Execution ρ))
  | .error f => .done (.error f)
  | .ok _ => c.passed P codec

theorem Call.program_eq (c : Call ν ρ) :
    c.program P codec = (P.limiter.enforce c.mutation.rateKey P.rules none).bind
      (c.judged P codec) := by
  refine congrArg (Program.bind _) (funext fun r => ?_)
  cases r with
  | error f => rfl
  | ok v =>
    unfold Call.judged Call.passed Call.key? Parts.mutationGuard
    cases c.mutation.idempotencyKey with
    | none =>
      refine congrArg (Program.bind _) (funext fun r => ?_)
      cases r <;> rfl
    | some key => exact IdempotencyGuard.execute_reading _ (codec key) none key _

/-! ### Results that are stored -/

section Stored

variable {P codec} {w w' : World ν} {key rk : String} {a : ρ} {bytes : List UInt8}

/-- The result of a key is stored: a completed record holds it, and the log has its write. -/
def Stored (P : Parts ν) (codec : String → ResultCodec ρ) (w : World ν) (key : String)
    (a : ρ) : Prop :=
  ∃ bytes t, (codec key).decode bytes = some a ∧
    w.shared.records.table.get? (P.recordKey key) =
      some ⟨.completed (P.recordKey key) bytes t, P.config.recordTtl⟩ ∧
    ∃ x ∈ w.log, x.2.put? = some ⟨.completed (P.recordKey key) bytes t, P.config.recordTtl⟩

omit [Amount ν] in
theorem Stored.ne_none (h : Stored P codec w key a) :
    w.shared.records.table.get? (P.recordKey key) ≠ none := by
  obtain ⟨bytes, t, -, hget, -⟩ := h
  rw [hget]
  exact Option.some_ne_none _

omit [Amount ν] in
theorem Stored.mono (h : Stored P codec w key a) (hrecords : w'.shared.records = w.shared.records)
    (hlog : w.log <+: w'.log) : Stored P codec w' key a := by
  obtain ⟨bytes, t, hdecode, hget, x, hx, hput⟩ := h
  exact ⟨bytes, t, hdecode, hrecords ▸ hget, x, hlog.subset hx, hput⟩

/-- A stored result is alive for whatever is asked next, if nothing is past its time by then. -/
theorem Stored.alive (h : Stored P codec w key a) {r : Shared.Request (Outside ν)}
    (hnone : NoneExpires (P.answer r w).2.log) :
    ∃ bytes t, (codec key).decode bytes = some a ∧
      w.shared.records.live? (P.clock w.log.length) (P.recordKey key) =
        some ⟨.completed (P.recordKey key) bytes t, P.config.recordTtl⟩ := by
  obtain ⟨bytes, t, hdecode, hget, x, hx, hput⟩ := h
  have hpairs := hnone.2
  rw [log_answer] at hpairs
  have hlater := (List.pairwise_append.1 hpairs).2.2 x hx _ (List.mem_singleton_self _)
  exact ⟨bytes, t, hdecode, Records.live?_eq_some.2 ⟨hget, hlater _ hput⟩⟩

omit [Amount ν] in
/-- A key has one result. -/
theorem Stored.unique {b : ρ} (h : Stored P codec w key a) (h' : Stored P codec w key b) :
    a = b := by
  obtain ⟨bytes, t, hdecode, hget, -⟩ := h
  obtain ⟨bytes', t', hdecode', hget', -⟩ := h'
  rw [hget] at hget'
  cases hget'
  exact Option.some.inj (hdecode.symm.trans hdecode')

/-- The world after a result has been stored. -/
def recorded (P : Parts ν) (w : World ν) (rk : String) (bytes : List UInt8) : World ν :=
  (P.answer (.records (.put (.completed rk bytes (P.clock w.log.length)) P.config.recordTtl))
    (P.answer .now w).2).2

theorem run_store (hencode : (codec key).encode a = some bytes) (w : World ν) (n : Nat) :
    (store (Outside ν) P.config (codec key) rk a).run P.answer w n =
      (some (.ok ⟨true, a⟩), recorded P w rk bytes, n) := by
  unfold store
  rw [hencode]
  rfl

theorem prefix_recorded (P : Parts ν) (w : World ν) (rk : String) (bytes : List UInt8) :
    w.log <+: (recorded P w rk bytes).log :=
  (prefix_answer .now w).trans (prefix_answer _ _)

/-- The write itself. -/
theorem log_recorded (P : Parts ν) (w : World ν) (rk : String) (bytes : List UInt8) :
    (recorded P w rk bytes).log =
      (P.answer .now w).2.log ++ [(P.clock (P.answer .now w).2.log.length,
        .call (.records (.put (.completed rk bytes (P.clock w.log.length)) P.config.recordTtl))
          (.ok ()))] :=
  log_answer _ _

theorem records_recorded (P : Parts ν) (w : World ν) (rk : String) (bytes : List UInt8) :
    (recorded P w rk bytes).shared.records =
      w.shared.records.put (P.clock (P.answer .now w).2.log.length)
      (.completed rk bytes (P.clock w.log.length)) P.config.recordTtl := rfl

/-- A result is stored, unless it is past its time at once. -/
theorem stored_recorded (hnone : NoneExpires (recorded P w (P.recordKey key) bytes).log)
    (hdecode : (codec key).decode bytes = some a) :
    Stored P codec (recorded P w (P.recordKey key) bytes) key a := by
  have hwrite := List.mem_append_right (P.answer .now w).2.log (List.mem_singleton_self
    (P.clock (P.answer .now w).2.log.length, (.call (.records (.put
      (.completed (P.recordKey key) bytes (P.clock w.log.length)) P.config.recordTtl)) (.ok ()) :
      Deed (service (Outside ν)))))
  rw [← log_recorded] at hwrite
  have halive := StoredRecord.isExpired_eq_false.1 (hnone.1 _ hwrite _ rfl)
  refine ⟨bytes, _, hdecode, ?_, _, hwrite, rfl⟩
  rw [records_recorded]
  exact Records.put_stores _ halive

/-- Other results stay stored. -/
theorem Stored.recorded (h : Stored P codec w key a)
    (hnone : NoneExpires (recorded P w rk bytes).log) (hrk : rk ≠ P.recordKey key) :
    Stored P codec (recorded P w rk bytes) key a := by
  have hnow : Stored P codec (P.answer .now w).2 key a := h.mono rfl (prefix_answer .now w)
  obtain ⟨bytes', t, hdecode, hlive⟩ := hnow.alive hnone
  obtain ⟨hget, halive⟩ := Records.live?_eq_some.1 hlive
  obtain ⟨bytes'', t', hdecode', hget', x, hx, hput⟩ := hnow
  rw [hget] at hget'
  cases hget'
  exact ⟨bytes', t, hdecode, Records.put_keeps hget halive hrk, x,
    (prefix_answer _ _).subset hx, hput⟩

/-- Other keys without a record stay so. -/
theorem free_recorded {rk' : String} (h : w.shared.records.table.get? rk' = none) (hrk : rk ≠ rk') :
    (recorded P w rk bytes).shared.records.table.get? rk' = none := by
  rw [records_recorded]
  refine Option.eq_none_iff_forall_not_mem.2 fun x hx => ?_
  rcases Records.put_present hx with hx | ⟨hkey, -⟩
  · rw [h] at hx
    cases hx
  · exact hrk hkey

omit [Amount ν] in
theorem recordKey_inj {key' : String} : P.recordKey key = P.recordKey key' ↔ key = key' := by
  simp [Parts.recordKey, IdempotencyGuard.recordKey, String.append_right_inj]

end Stored

/-! ### What a call can do -/

/-- The courses that a call can take. -/
inductive Course (e : Entry ν ρ) : Prop
  /-- The limiter does not let it pass. -/
  | refused (f : Failure) (verdict : e.verdict P = some (.error f))
      (result : e.result = some (.error f))
      (shared : e.after.shared = e.before.shared) (only : Only OfLimiter e.before e.after)
  /-- The result of its key is stored. -/
  | replayed (key : String) (a : ρ) (key? : e.call.key? = some key) (passes : e.Passes P)
      (stored : Stored P codec e.before key a) (result : e.result = some (.ok ⟨false, a⟩))
      (shared : e.after.shared = e.before.shared)
      (only : Only (fun d => ¬ Deed.IsWork d) e.before e.after)
  /-- It has run, and nothing of it shows. -/
  | failed (f : Failure) (passes : e.Passes P)
      (free : ∀ key, e.call.key? = some key →
        e.before.shared.records.table.get? (P.recordKey key) = none)
      (result : e.result = some (.error f))
      (tried : P.Tried e.before (.error f : Except Failure ρ) e.after)
  /-- It has run, and its transaction is committed. -/
  | performed (a : ρ) (w : World ν) (passes : e.Passes P)
      (free : ∀ key, e.call.key? = some key →
        e.before.shared.records.table.get? (P.recordKey key) = none)
      (result : e.result = some (.ok ⟨true, a⟩)) (tried : P.Tried e.before (.ok a) w)
      (databases : e.after.shared.databases = w.shared.databases) (log : w.log <+: e.after.log)
      (stored : ∀ key, e.call.key? = some key → Stored P codec e.after key a)
      (keeps : ∀ key b, e.call.key? ≠ some key → Stored P codec e.before key b →
        Stored P codec e.after key b)
      (leaves : ∀ key, e.call.key? ≠ some key →
        e.before.shared.records.table.get? (P.recordKey key) = none →
        e.after.shared.records.table.get? (P.recordKey key) = none)

section Course

variable {P codec} {w w₁ : World ν} {c : Call ν ρ}

omit [Amount ν] in
theorem not_isWork_of_ofLimiter (d : Deed (service (Outside ν))) (h : OfLimiter d) :
    ¬ d.IsWork := by
  rintro ⟨handle, rfl⟩
  exact h

/-- How a call goes on that the limiter lets pass is how it goes. -/
theorem serve_of_ok {v : Verdict} {n : Nat}
    (hrun : (P.limiter.enforce c.mutation.rateKey P.rules none).run P.answer w c.timer =
      (some (.ok v), w₁, n)) :
    serve P codec w c =
      ⟨c, w, ((c.passed P codec).run P.answer w₁ n).1,
        ((c.passed P codec).run P.answer w₁ n).2.1⟩ := by
  unfold serve
  rw [Call.program_eq, Program.run_bind, hrun]
  rfl

/-! ### A guarded operation -/

section Guarded

variable {how : ResultCodec ρ} {key : String}
variable {op : Program (service (Outside ν)) (Except Failure ρ)} {n n' : Nat}
variable {w₂ : World ν} {x : StoredRecord} {a : ρ} {f : Failure}

theorem shared_get_of_alive
    (h : w.shared.records.live? (P.clock w.log.length) (P.recordKey key) = some x) :
    (P.answer (.records (.get (P.recordKey key))) w).2.shared = w.shared := by
  rw [shared_records, Records.step_get_of_alive h]

theorem shared_get_of_absent (h : w.shared.records.table.get? (P.recordKey key) = none) :
    (P.answer (.records (.get (P.recordKey key))) w).2.shared = w.shared := by
  rw [shared_records, Records.step_get_of_absent h]

/-- A guarded operation begins with a look-up. -/
theorem prefix_execute (w : World ν) (n : Nat) :
    (P.answer (.records (.get (P.recordKey key))) w).2.log <+:
      (((guard (Outside ν) P.config).execute how key op).run P.answer w n).2.1.log := by
  rw [execute_eq]
  exact prefix_run _ _ _

theorem run_execute_of_found {v : Except Failure (Execution ρ)}
    (h : w.shared.records.live? (P.clock w.log.length) (P.recordKey key) = some x)
    (hv : IdempotencyGuard.verdict how (.ok (some x.record)) = some v) :
    ((guard (Outside ν) P.config).execute how key op).run P.answer w n =
      (some v, (P.answer (.records (.get (P.recordKey key))) w).2, n) := by
  rw [execute_eq, Program.run, reply_records, Records.step_get_of_alive h]
  simp only [hv, Program.run]

theorem run_execute_of_error (h : w.shared.records.table.get? (P.recordKey key) = none)
    (hop : op.run P.answer (P.answer (.records (.get (P.recordKey key))) w).2 n =
      (some (.error f), w₂, n')) :
    ((guard (Outside ν) P.config).execute how key op).run P.answer w n =
      (some (.error f), w₂, n') := by
  rw [execute_eq, Program.run, reply_records, Records.step_get_of_absent h]
  show (op.bind _).run P.answer _ n = _
  rw [Program.run_bind, hop]
  rfl

theorem run_execute_of_ok (h : w.shared.records.table.get? (P.recordKey key) = none)
    (hop : op.run P.answer (P.answer (.records (.get (P.recordKey key))) w).2 n =
      (some (.ok a), w₂, n')) :
    ((guard (Outside ν) P.config).execute how key op).run P.answer w n =
      (store (Outside ν) P.config how (P.recordKey key) a).run P.answer w₂ n' := by
  rw [execute_eq, Program.run, reply_records, Records.step_get_of_absent h]
  show (op.bind _).run P.answer _ n = _
  rw [Program.run_bind, hop]

theorem result_store (how : ResultCodec ρ) (rk : String) (a : ρ) (w : World ν) (n : Nat) :
    ((store (Outside ν) P.config how rk a).run P.answer w n).1 = some (.ok ⟨true, a⟩) := by
  unfold store
  cases how.encode a <;> rfl

end Guarded

/-! ### The course of a call -/

section Passed

variable {v : Verdict} {n : Nat} {key : String}

/-- A call without a key. -/
theorem course_of_keyless
    (hrun : (P.limiter.enforce c.mutation.rateKey P.rules none).run P.answer w c.timer =
      (some (.ok v), w₁, n))
    (hshared : w₁.shared = w.shared) (honly : Only OfLimiter w w₁)
    (hopen : ∀ m, (P.db w).opened.get? m = none) (hkey : c.key? = none) :
    Course P codec (serve P codec w c) := by
  obtain ⟨r, w₂, n', htx, htried⟩ := run_yields c.uses (db_congr hshared ▸ hopen) c.mutation.spec n
  have hserve : serve P codec w c = ⟨c, w, some (r.map (⟨true, ·⟩)), w₂⟩ := by
    rw [serve_of_ok hrun, Call.passed, hkey]
    dsimp only
    rw [Program.run_bind, htx]
    rfl
  have hpasses : (serve P codec w c).Passes P := ⟨v, congrArg Prod.fst hrun⟩
  have hfree : ∀ key, c.key? = some key → w.shared.records.table.get? (P.recordKey key) = none := by
    intro key h
    rw [hkey] at h
    cases h
  have htried := htried.earlier hshared honly.isPrefix
  rw [hserve] at hpasses ⊢
  cases r with
  | error f => exact .failed f hpasses hfree rfl htried
  | ok a =>
    refine .performed a w₂ hpasses hfree rfl htried rfl List.prefix_rfl ?_ ?_ ?_
    · intro key h
      rw [show c.key? = none from hkey] at h
      cases h
    · intro key b _ hstored
      exact hstored.mono htried.records htried.worked.isPrefix
    · intro key _ hget
      show w₂.shared.records.table.get? _ = none
      rw [htried.records]
      exact hget

/-- A call whose key has a result. -/
theorem course_of_stored {a : ρ}
    (hrun : (P.limiter.enforce c.mutation.rateKey P.rules none).run P.answer w c.timer =
      (some (.ok v), w₁, n))
    (hshared : w₁.shared = w.shared) (honly : Only OfLimiter w w₁) (hkey : c.key? = some key)
    (hstored : Stored P codec w key a) (hnone : NoneExpires (serve P codec w c).after.log) :
    Course P codec (serve P codec w c) := by
  have hpasses : (serve P codec w c).Passes P := ⟨v, congrArg Prod.fst hrun⟩
  have hserve : serve P codec w c = _ := serve_of_ok hrun
  rw [Call.passed, hkey] at hserve
  dsimp only at hserve
  rw [hserve] at hnone
  have hstored₁ : Stored P codec w₁ key a := hstored.mono (congrArg _ hshared) honly.isPrefix
  obtain ⟨bytes, t, hdecode, hlive⟩ := hstored₁.alive (hnone.earlier (prefix_execute w₁ n))
  rw [run_execute_of_found hlive (IdempotencyGuard.verdict_decodes rfl hdecode)] at hserve
  rw [hserve] at hpasses ⊢
  refine .replayed key a hkey hpasses hstored rfl ((shared_get_of_alive hlive).trans hshared) ?_
  refine (honly.mono not_isWork_of_ofLimiter).answer _ ?_
  rintro ⟨handle, hwork⟩
  cases hwork

/-- A call that has stored what it committed. -/
theorem course_of_recorded {a : ρ} {bytes : List UInt8} {w₂ : World ν}
    {r : Option (Except Failure (Execution ρ))} {w' : World ν} (hkey : c.key? = some key)
    (hpasses : (⟨c, w, r, w'⟩ : Entry ν ρ).Passes P)
    (hfree : ∀ key, c.key? = some key → w.shared.records.table.get? (P.recordKey key) = none)
    (htried : P.Tried w (.ok a) w₂) (hdecode : (codec key).decode bytes = some a)
    (hnone : NoneExpires (recorded P w₂ (P.recordKey key) bytes).log) :
    Course P codec ⟨c, w, some (.ok ⟨true, a⟩), recorded P w₂ (P.recordKey key) bytes⟩ := by
  have hother : ∀ key', c.key? ≠ some key' → P.recordKey key ≠ P.recordKey key' := by
    intro key' hne heq
    exact hne (hkey.trans (congrArg some (recordKey_inj.1 heq)))
  refine .performed a w₂ hpasses hfree rfl htried rfl (prefix_recorded _ _ _ _) ?_ ?_ ?_
  · intro key' h
    cases hkey.symm.trans h
    exact stored_recorded hnone hdecode
  · intro key' b hne hstored
    exact (hstored.mono htried.records htried.worked.isPrefix).recorded hnone (hother key' hne)
  · intro key' hne hget
    refine free_recorded ?_ (hother key' hne)
    rw [htried.records]
    exact hget

/-- A call whose key has no record. -/
theorem course_of_free
    (hrun : (P.limiter.enforce c.mutation.rateKey P.rules none).run P.answer w c.timer =
      (some (.ok v), w₁, n))
    (hshared : w₁.shared = w.shared) (honly : Only OfLimiter w w₁)
    (hopen : ∀ m, (P.db w).opened.get? m = none) (hkey : c.key? = some key)
    (hfree : w.shared.records.table.get? (P.recordKey key) = none)
    (hcodec : ∀ a, (serve P codec w c).result = some (.ok ⟨true, a⟩) → (codec key).RoundTrips a)
    (hnone : NoneExpires (serve P codec w c).after.log) :
    Course P codec (serve P codec w c) := by
  have hpasses : (serve P codec w c).Passes P := ⟨v, congrArg Prod.fst hrun⟩
  have hserve : serve P codec w c = _ := serve_of_ok hrun
  rw [Call.passed, hkey] at hserve
  dsimp only at hserve
  have hfree₁ : w₁.shared.records.table.get? (P.recordKey key) = none := hshared ▸ hfree
  have hlooked := (shared_get_of_absent hfree₁).trans hshared
  obtain ⟨r, w₂, n', htx, htried⟩ := run_yields c.uses (db_congr hlooked ▸ hopen) c.mutation.spec n
  have htried := htried.earlier hlooked (honly.isPrefix.trans (prefix_answer _ w₁))
  have hkeys : ∀ key', c.key? = some key' →
      w.shared.records.table.get? (P.recordKey key') = none := by
    intro key' h
    cases hkey.symm.trans h
    exact hfree
  cases r with
  | error f =>
    rw [run_execute_of_error hfree₁ htx] at hserve
    rw [hserve] at hpasses ⊢
    exact .failed f hpasses hkeys rfl htried
  | ok a =>
    rw [run_execute_of_ok hfree₁ htx] at hserve
    obtain ⟨bytes, hencode, hdecode⟩ := hcodec a (by rw [hserve]; exact result_store _ _ a w₂ n')
    rw [run_store hencode] at hserve
    rw [hserve] at hpasses hnone ⊢
    exact course_of_recorded hkey hpasses hkeys htried hdecode hnone

end Passed

/-- **One call** takes one of the courses, if its key has a result or no record. -/
theorem serve_course (hopen : ∀ m, (P.db w).opened.get? m = none)
    (hrecord : ∀ key, c.key? = some key →
      w.shared.records.table.get? (P.recordKey key) = none ∨ ∃ a, Stored P codec w key a)
    (hcodec : ∀ key a, c.key? = some key → (serve P codec w c).result = some (.ok ⟨true, a⟩) →
      (codec key).RoundTrips a)
    (hnone : NoneExpires (serve P codec w c).after.log) : Course P codec (serve P codec w c) := by
  obtain ⟨r, w₁, n, hrun, -, hshared, honly⟩ := enforce_yields c.mutation.rateKey none w c.timer
  cases r with
  | error f =>
    have hserve : serve P codec w c = ⟨c, w, some (.error f), w₁⟩ := by
      unfold serve
      rw [Call.program_eq, Program.run_bind, hrun]
      rfl
    have hverdict : (serve P codec w c).verdict P = some (.error f) := congrArg Prod.fst hrun
    rw [hserve] at hverdict ⊢
    exact .refused f hverdict rfl hshared honly
  | ok v =>
    cases hkey : c.key? with
    | none => exact course_of_keyless hrun hshared honly hopen hkey
    | some key =>
      rcases hrecord key hkey with hfree | ⟨a, hstored⟩
      · exact course_of_free hrun hshared honly hopen hkey hfree (fun a => hcodec key a hkey) hnone
      · exact course_of_stored hrun hshared honly hkey hstored hnone

end Course

end Pipeline

end GuardedWrites

import GuardedWrites.Proofs.Idempotency.Calls

/-!
# Calls of a guard at a desk

The calls of a guard over records in process, one at a time. Each is performed by itself from its
first step to its last, and in its course the clock shows what it likes as long as it does not step
back.

* `Call`, `Readings`, `Site.serve` — a call, what the clock shows, and the records and the outside
  that it leaves;
* `Desk.guard` — a guard whose steps move the clock;
* `Desk.execute_of_found`, `Desk.execute_of_error`, `Desk.execute_of_ok` — a plain call;
* `Desk.executeExclusive_of_found`, `Desk.executeExclusive_of_free`, `Desk.runClaimed_of_error`,
  `Desk.runClaimed_of_ok` — an exclusive one.
-/

namespace GuardedWrites

namespace OneByOne

/-- What is asked of a guard. An operation works on what is outside the guard and its records. -/
inductive Call (ω ρ : Type) where
  | execute (exclusive : Bool) (key : String) (operation : ω → Except Failure ρ × ω)
  | wasCompleted (key : String)
  | getResult (key : String)
  | clear (key : String)

/-- What a call is answered. -/
inductive Answer (ρ : Type) where
  | executed (x : Except Failure (Execution ρ))
  | completed (x : Except Failure Bool)
  | result (x : Except Failure (Option ρ))
  | cleared (x : Except Failure Unit)

/-- What the clock shows in the course of a call: one reading after the other until its operation is
through, and one after the other from then on. -/
structure Readings where
  before : Nat → Moment
  after : Nat → Moment
  before_mono : ∀ i j, i ≤ j → before i ≤ before j
  before_le_after : ∀ i j, before i ≤ after j
  after_mono : ∀ i j, i ≤ j → after i ≤ after j

/-- When the call looks for a record. -/
def Readings.look (t : Readings) : Moment := t.before 0

/-- When the result of the call is stored, if it is. -/
def Readings.stamp (t : Readings) : Moment := t.after 0

/-- A call and what it left behind: its answer, how its operation ended each time that it was
invoked, and what is outside. -/
structure Reply (ω ρ : Type) where
  answer : Answer ρ
  outcomes : List (Except Failure ρ)
  outside : ω

/-- A call with what the clock showed and what came of it. -/
structure Entry (ω ρ : Type) where
  call : Call ω ρ
  readings : Readings
  reply : Reply ω ρ

/-- The records of a guard, and what is outside. -/
structure Site (ω : Type) where
  records : Records
  outside : ω

/-- A site in the course of a call, with the readings to come and the outcomes so far. -/
structure Desk (ω ρ : Type) extends Site ω where
  clock : Nat → Moment
  outcomes : List (Except Failure ρ)

variable {ω ρ : Type}

namespace Desk

/-- The clock has been read. -/
def ticked (d : Desk ω ρ) : Desk ω ρ := { d with clock := fun n => d.clock (n + 1) }

/-- The records have answered a request. -/
def asked (d : Desk ω ρ) (r : RecordStore.Request) : Desk ω ρ :=
  { d.ticked with records := (d.records.step (d.clock 0) r).2 }

/-- A guard on the records of the site, with the clock that they have. -/
def guard (config : IdempotencyConfig) : IdempotencyGuard (StateM (Desk ω ρ)) where
  config := config
  records r := fun d => (.ok (d.records.step (d.clock 0) r).1, d.asked r)
  now := fun d => (d.clock 0, d.ticked)

/-- An operation, its outcome noted. When it is through, the clock shows the later readings. -/
def invoke (t : Readings) (operation : ω → Except Failure ρ × ω) :
    StateM (Desk ω ρ) (Except Failure ρ) := fun d =>
  ((operation d.outside).1, { d with
    outside := (operation d.outside).2, clock := t.after, outcomes :=
      d.outcomes ++ [(operation d.outside).1] })

/-- What a call leaves behind when it is over. -/
def reply (d : Desk ω ρ) (answer : Answer ρ) : Reply ω ρ := ⟨answer, d.outcomes, d.outside⟩

end Desk

/-- A call as the guard performs it. -/
def Call.perform (config : IdempotencyConfig) (codec : String → ResultCodec ρ) (t : Readings) :
    Call ω ρ → StateM (Desk ω ρ) (Answer ρ)
  | .execute false key operation =>
    .executed <$> (Desk.guard config).execute (codec key) key (Desk.invoke t operation)
  | .execute true key operation =>
    .executed <$> (Desk.guard config).executeExclusive (codec key) key (Desk.invoke t operation)
  | .wasCompleted key => .completed <$> (Desk.guard config).wasCompleted key
  | .getResult key => .result <$> (Desk.guard config).getResult (codec key) key
  | .clear key => .cleared <$> (Desk.guard config).clear key

namespace Site

/-- A call from its first step to its last, and the site that it leaves. -/
def serve (config : IdempotencyConfig) (codec : String → ResultCodec ρ) (s : Site ω) (c : Call ω ρ)
    (t : Readings) :
    Reply ω ρ × Site ω :=
  let x := c.perform config codec t ⟨s, t.before, []⟩
  (x.2.reply x.1, x.2.toSite)

/-- Calls one after the other. -/
def transcript (config : IdempotencyConfig) (codec : String → ResultCodec ρ) :
    Site ω → List (Call ω ρ × Readings) → List (Entry ω ρ)
  | _, [] => []
  | s, (c, t) :: rest =>
    ⟨c, t, (s.serve config codec c t).1⟩ ::
      transcript config codec (s.serve config codec c t).2 rest

/-- The site after some calls. -/
def run (config : IdempotencyConfig) (codec : String → ResultCodec ρ) (s : Site ω)
    (calls : List (Call ω ρ × Readings)) : Site ω :=
  calls.foldl (fun s e => (s.serve config codec e.1 e.2).2) s

end Site

/-! ### The steps of a call -/

namespace Desk

variable {config : IdempotencyConfig} {codec : ResultCodec ρ} {d : Desk ω ρ} {key rk : String}
variable {a : ρ} {e : Failure}
variable {bytes : List UInt8} {op : StateM (Desk ω ρ) (Except Failure ρ)} {α β : Type}

open IdempotencyGuard (found)

/-- An operation is through with a result, which has been stored if it can be. -/
def stored (config : IdempotencyConfig) (codec : ResultCodec ρ) (d : Desk ω ρ) (rk : String)
    (a : ρ) : Desk ω ρ :=
  ((guard config).storeCompleted codec rk a d).2

/-- Nothing was found, and a marker has been left. -/
def claimed (d : Desk ω ρ) (rk : String) (ttl : Span) : Desk ω ρ :=
  (d.asked (.get rk)).ticked.asked (.putIfAbsent (.pending rk (d.clock 1)) ttl)

theorem bind_apply (x : StateM (Desk ω ρ) α) (f : α → StateM (Desk ω ρ) β) (d : Desk ω ρ) :
    (x >>= f) d = f (x d).1 (x d).2 := rfl

theorem get_apply (config : IdempotencyConfig) (rk : String) (d : Desk ω ρ) :
    (guard config).records (.get rk) d =
      (.ok ((d.records.live? (d.clock 0) rk).map (·.record)), d.asked (.get rk)) :=
  congrArg (fun x => (Except.ok x, d.asked (.get rk))) (d.records.step_get (d.clock 0) rk)

/-- A look-up finds what is alive. -/
theorem replay_apply (config : IdempotencyConfig) (codec : ResultCodec ρ) (rk : String)
    (d : Desk ω ρ) :
    (guard config).replay codec rk d =
      (found codec (.ok ((d.records.live? (d.clock 0) rk).map (·.record))), d.asked (.get rk)) := by
  unfold IdempotencyGuard.replay
  rw [bind_apply, get_apply]
  cases d.records.live? (d.clock 0) rk with
  | none => rfl
  | some x =>
    simp only [Option.map_some, found]
    split
    · cases codec.decode x.record.result <;> rfl
    · rfl

theorem outside_stored (config : IdempotencyConfig) (codec : ResultCodec ρ) (d : Desk ω ρ)
    (rk : String) (a : ρ) :
    (d.stored config codec rk a).outside = d.outside := by
  unfold stored IdempotencyGuard.storeCompleted
  cases codec.encode a <;> rfl

theorem outcomes_stored (config : IdempotencyConfig) (codec : ResultCodec ρ) (d : Desk ω ρ)
    (rk : String) (a : ρ) :
    (d.stored config codec rk a).outcomes = d.outcomes := by
  unfold stored IdempotencyGuard.storeCompleted
  cases codec.encode a <;> rfl

/-- The result is stamped with one reading, and stored at the next one. -/
theorem records_stored (h : codec.encode a = some bytes) :
    (d.stored config codec rk a).records =
      d.records.put (d.clock 1) (.completed rk bytes (d.clock 0)) config.recordTtl := by
  unfold stored IdempotencyGuard.storeCompleted
  rw [h]
  rfl

theorem now_apply (config : IdempotencyConfig) (d : Desk ω ρ) :
    (guard config).now d = (d.clock 0, d.ticked) := rfl

theorem config_guard (config : IdempotencyConfig) :
    (guard config : IdempotencyGuard (StateM (Desk ω ρ))).config = config := rfl

theorem recordKey_guard (config : IdempotencyConfig) (key : String) :
    (guard config : IdempotencyGuard (StateM (Desk ω ρ))).recordKey key =
      config.keyPrefix ++ key := rfl

/-- A call that finds a result ends with it. -/
theorem execute_of_found
    (h : found codec (.ok ((d.records.live? (d.clock 0) (config.keyPrefix ++ key)).map (·.record)))
      = .ok (some a)) :
    (guard config).execute codec key op d =
      (.ok ⟨false, a⟩, d.asked (.get (config.keyPrefix ++ key))) := by
  unfold IdempotencyGuard.execute
  rw [bind_apply, recordKey_guard, replay_apply]
  dsimp only
  rw [h]
  rfl

/-- A call that finds nothing and whose operation fails leaves nothing behind but what the operation
did. -/
theorem execute_of_error (h : d.records.live? (d.clock 0) (config.keyPrefix ++ key) = none)
    (hop : (op (d.asked (.get (config.keyPrefix ++ key)))).1 = .error e) :
    (guard config).execute codec key op d =
      (.error e, (op (d.asked (.get (config.keyPrefix ++ key)))).2) := by
  unfold IdempotencyGuard.execute
  rw [bind_apply, recordKey_guard, replay_apply, h]
  dsimp only [Option.map_none, found]
  rw [bind_apply, hop]
  rfl

/-- A call that finds nothing and whose operation succeeds stores the result. -/
theorem execute_of_ok (h : d.records.live? (d.clock 0) (config.keyPrefix ++ key) = none)
    (hop : (op (d.asked (.get (config.keyPrefix ++ key)))).1 = .ok a) :
    (guard config).execute codec key op d = (.ok ⟨true, a⟩,
      (op (d.asked (.get (config.keyPrefix ++ key)))).2.stored config codec
        (config.keyPrefix ++ key) a) := by
  unfold IdempotencyGuard.execute
  rw [bind_apply, recordKey_guard, replay_apply, h]
  dsimp only [Option.map_none, found]
  rw [bind_apply, hop]
  rfl

theorem executeExclusive_of_found
    (h : found codec (.ok ((d.records.live? (d.clock 0) (config.keyPrefix ++ key)).map (·.record)))
      = .ok (some a)) :
    (guard config).executeExclusive codec key op d =
      (.ok ⟨false, a⟩, d.asked (.get (config.keyPrefix ++ key))) := by
  unfold IdempotencyGuard.executeExclusive
  rw [bind_apply, recordKey_guard, replay_apply]
  dsimp only
  rw [h]
  rfl

/-- An exclusive call that finds nothing twice goes on as the holder of its key. -/
theorem executeExclusive_of_free (h : d.records.live? (d.clock 0) (config.keyPrefix ++ key) = none)
    (hagain : (d.asked (.get (config.keyPrefix ++ key))).records.live? (d.clock 2)
      (config.keyPrefix ++ key) = none) :
    (guard config).executeExclusive codec key op d =
      (guard config).runClaimed codec (config.keyPrefix ++ key) op
        (d.claimed (config.keyPrefix ++ key) config.lockTtl) := by
  have hclaim : (guard config).records
      (.putIfAbsent (.pending (config.keyPrefix ++ key)
        ((d.asked (.get (config.keyPrefix ++ key))).clock 0))
        config.lockTtl) (d.asked (.get (config.keyPrefix ++ key))).ticked =
      (.ok true, d.claimed (config.keyPrefix ++ key) config.lockTtl) :=
    congrArg (fun x : Bool × Records =>
      (Except.ok x.1, d.claimed (config.keyPrefix ++ key) config.lockTtl))
      (Records.step_putIfAbsent_of_free hagain)
  unfold IdempotencyGuard.executeExclusive
  rw [bind_apply, recordKey_guard, replay_apply, h]
  dsimp only [Option.map_none, found]
  rw [bind_apply, now_apply, bind_apply, config_guard]
  dsimp only
  rw [hclaim]

theorem records_claimed (hagain : (d.asked (.get rk)).records.live? (d.clock 2) rk = none)
    (ttl : Span) :
    (d.claimed rk ttl).records = (d.asked (.get rk)).records.put (d.clock 2)
      (.pending rk (d.clock 1)) ttl :=
  congrArg Prod.snd (Records.step_putIfAbsent_of_free hagain)

theorem runClaimed_of_error (hop : (op d).1 = .error e) :
    (guard config).runClaimed codec rk op d = (.error e, (op d).2.asked (.remove rk)) := by
  unfold IdempotencyGuard.runClaimed
  rw [bind_apply, hop]
  rfl

theorem runClaimed_of_ok (hop : (op d).1 = .ok a) :
    (guard config).runClaimed codec rk op d =
      (.ok ⟨true, a⟩, (op d).2.stored config codec rk a) := by
  unfold IdempotencyGuard.runClaimed
  rw [bind_apply, hop]
  rfl

/-- What a look at a key says. -/
theorem wasCompleted_apply (config : IdempotencyConfig) (key : String) (d : Desk ω ρ) :
    (guard config).wasCompleted key d =
      (.ok ((d.records.live? (d.clock 0) (config.keyPrefix ++ key)).any fun x =>
        x.record.isCompleted), d.asked (.get (config.keyPrefix ++ key))) := by
  unfold IdempotencyGuard.wasCompleted
  rw [bind_apply, recordKey_guard, get_apply]
  dsimp only
  rw [Option.any_map]
  rfl

end Desk

end OneByOne

end GuardedWrites

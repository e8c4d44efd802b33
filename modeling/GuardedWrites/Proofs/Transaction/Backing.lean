import GuardedWrites.Mutation
import GuardedWrites.Proofs.Idempotency.Calls
import GuardedWrites.Proofs.Rate.Requests
import GuardedWrites.Proofs.Transaction.Provenance

/-!
# Completed means committed, unless the work was joined

Runs that are guarded by idempotency keys, nested in each other in any way, on any stores, their
steps mixed with those of others in any order. The result of a guarded run says which work it comes
from, so that a stored record can be asked.

* `guardedRun`, `guardedMutation` — runs whose results are stored under a key;
* `Nest` — programs made of such runs;
* `Nest.safe` — none of them stores a completed record before the transaction of its work is
  committed, unless the run joined the transaction around it;
* `joinedRun` — what a guarded run asks for that joins: its result is stored as soon as the work
  returns;
* `completed_committed_unless_joined` — every completed record is backed by a commit, unless its run
  joined; all are exactly if those of joined runs are;
* `discarded_work_replays` — those of joined runs are not.
-/

namespace GuardedWrites

open Shared
open IdempotencyGuard (verdict)

namespace Provenance

variable {W : Service} {α ρ : Type}

/-- Work whose result says where it comes from. -/
def tracked (joined : Bool) (work : Handle → Action W (Except Failure ρ)) (h : Handle) :
    Action W (Except Failure (Origin × ρ)) :=
  fun scope => (work h scope).bind fun r => .done (r.map fun a => (⟨h.store, h.tx, joined⟩, a))

/-- What is stored of a result tells its origin. -/
def Tells (origin : List UInt8 → Option Origin) (codec : ResultCodec (Origin × ρ)) : Prop :=
  ∀ o a bytes, codec.encode (o, a) = some bytes → origin bytes = some o

/-- A run guarded by a key. -/
def guardedRun (config : IdempotencyConfig) (R : Runner (Action W))
    (codec : ResultCodec (Origin × ρ)) (key : String) (spec : RunSpec)
    (work : Handle → Action W (Except Failure ρ)) :
    Action W (Except Failure (Execution (Origin × ρ))) := fun scope =>
  (guard W config).execute codec key (R.run spec (tracked (joins R scope) work) scope)

/-- A guarded mutation. -/
def guardedMutation {ν : Type} [Amount ν] (G : MutationGuard ν (Action W))
    (codec : ResultCodec (Origin × ρ)) (x : Mutation)
    (work : Handle → Action W (Except Failure ρ)) :
    Action W (Except Failure (Execution (Origin × ρ))) := fun scope =>
  G.execute codec x (tracked (joins G.runner scope) work) scope

/-- Programs made of runs, guarded or not. -/
inductive Nest (origin : List UInt8 → Option Origin) : {α : Type} → Action W α → Prop
  | pure {α : Type} (a : α) : Nest origin (fun _ => .done a)
  | scope : Nest origin (fun scope => .done scope)
  | bind {α β : Type} {p : Action W α} {f : α → Action W β} (hp : Nest origin p)
      (hf : ∀ a, Nest origin (f a)) :
      Nest origin (fun scope => (p scope).bind fun a => f a scope)
  /-- A request that stores no completed record, such as one to the transaction of a handle. -/
  | ask (r : Request W) (hr : Harmless r) : Nest origin (fun _ => .ask (S := service W) r)
  | timer : Nest origin (fun _ => .timer .done)
  | sleep (ticks : Nat) : Nest origin (fun _ => .sleep ticks (.done ()))
  | hang {α : Type} : Nest origin (fun _ => (.hang : Program (service W) α))
  | cutAt {α : Type} {p : Action W α} (deadline : Nat) (hp : Nest origin p) :
      Nest origin (fun scope => (p scope).cutAt deadline)
  /-- Another scope, none for instance for what runs as a task of its own. -/
  | within {α : Type} {p : Action W α} (f : Scope → Scope) (hp : Nest origin p) :
      Nest origin (fun scope => p (f scope))
  | run {ε α : Type} [TransactionFailure ε] {R : Runner (Action W)} (hR : Plain R) (spec : RunSpec)
      {work : Handle → Action W (Except ε α)} (hw : ∀ h, Nest origin (work h)) :
      Nest origin (R.run spec work)
  /-- A run guarded by a key. -/
  | execute {ρ : Type} (config : IdempotencyConfig) {R : Runner (Action W)} (hR : Plain R)
      (codec : ResultCodec (Origin × ρ)) (hc : Tells origin codec) (key : String) (spec : RunSpec)
      {work : Handle → Action W (Except Failure ρ)} (hw : ∀ h, Nest origin (work h)) :
      Nest origin (guardedRun config R codec key spec work)
  /-- A guarded mutation. -/
  | mutate {ν ρ : Type} [Amount ν] (G : MutationGuard ν (Action W)) (hL : G.limiter.Asks Harmless)
      (hG : ∀ g, G.idempotency = some g → ∃ config, g = (guard W config).reading)
      (hR : Plain G.runner) (codec : ResultCodec (Origin × ρ)) (hc : Tells origin codec)
      (x : Mutation) {work : Handle → Action W (Except Failure ρ)}
      (hw : ∀ h, Nest origin (work h)) : Nest origin (guardedMutation G codec x work)

variable {home : Nat → Nat} {origin : List UInt8 → Option Origin} {known : List (Nat × Nat)}

/-- What is known of the result of guarded work: unless it joined, its transaction is committed. -/
def Earned (home : Nat → Nat) (known : List (Nat × Nat)) (r : Except Failure (Origin × ρ)) : Prop :=
  ∀ o a, r = .ok (o, a) → o.joined = false → o.transaction home ∈ known

theorem store_safe (config : IdempotencyConfig) {codec : ResultCodec (Origin × ρ)}
    (hc : Tells origin codec) (rk : String) {o : Origin} (a : ρ)
    (ho : o.joined = false → o.transaction home ∈ known) :
    Safe home origin known (store W config codec rk (o, a)) := by
  unfold store
  cases ha : codec.encode (o, a) with
  | none => trivial
  | some bytes =>
    exact ⟨trivial, fun t => ⟨fun _ => ⟨o, hc o a bytes ha, ho⟩, fun _ => trivial⟩⟩

theorem execute_safe (config : IdempotencyConfig) {codec : ResultCodec (Origin × ρ)}
    (hc : Tells origin codec) (key : String)
    {op : Program (service W) (Except Failure (Origin × ρ))}
    (hop : ∀ known, Sound home origin (Earned home) known op) :
    Safe home origin known ((guard W config).execute codec key op) := by
  rw [execute_eq]
  refine ⟨trivial, fun x => ?_⟩
  dsimp only
  cases verdict codec x with
  | some v => trivial
  | none =>
    refine Sound.bind (hop _) fun known' r _ hr => ?_
    rcases r with e | ⟨o, a⟩
    · trivial
    · exact store_safe config hc _ a (hr o a rfl)

theorem run_tracked_sound {R : Runner (Action W)} (hR : Plain R) (spec : RunSpec)
    {work : Handle → Action W (Except Failure ρ)}
    (hw : ∀ h scope known, Safe home origin known (work h scope))
    (scope : Scope) (known : List (Nat × Nat)) :
    Sound home origin (Earned home) known (R.run spec (tracked (joins R scope) work) scope) := by
  have htracked : ∀ h scope' known, Sound home origin (fun _ r => ∀ x, r = .ok x →
      x.1 = ⟨h.store, h.tx, joins R scope⟩) known (tracked (joins R scope) work h scope') := by
    intro h scope' known
    refine Sound.bind (hw h scope' known) fun _ r _ _ => ?_
    cases r with
    | error e =>
      intro x hx
      cases hx
    | ok a =>
      intro x hx
      cases hx
      rfl
  refine (run_sound hR spec htracked scope known).mono fun known' r _ hr o a ha hj => ?_
  obtain ⟨h, rfl, hm⟩ := hr _ ha
  exact hm hj

theorem mutate_safe {ν : Type} [Amount ν] {G : MutationGuard ν (Action W)}
    (hL : G.limiter.Asks Harmless)
    (hG : ∀ g, G.idempotency = some g → ∃ config, g = (guard W config).reading)
    {codec : ResultCodec (Origin × ρ)} (hc : Tells origin codec) (x : Mutation)
    {work : Handle → Action W (Except Failure (Origin × ρ))} {scope : Scope}
    (hrun : ∀ known, Sound home origin (Earned home) known (G.runner.run x.spec work scope)) :
    Safe home origin known (G.execute codec x work scope) := by
  refine Sound.bind (safe_of_harmless (hL.enforce x.rateKey G.rules scope) known)
    fun known₁ v _ _ => ?_
  cases v with
  | error f => trivial
  | ok v =>
    have hrest : ∀ f : Except Failure (Origin × ρ) →
          Program (service W) (Except Failure (Execution (Origin × ρ))),
        (∀ r known', Safe home origin known' (f r)) →
        Safe home origin known₁ ((G.runner.run x.spec work scope).bind f) :=
      fun f hf => Sound.bind (hrun known₁) fun known' r _ _ => hf r known'
    -- without a guard or without a key nothing is stored
    dsimp only
    cases hg : G.idempotency with
    | none => exact hrest _ fun r _ => by cases r <;> trivial
    | some g =>
      cases hk : x.idempotencyKey with
      | none => exact hrest _ fun r _ => by cases r <;> trivial
      | some key =>
        obtain ⟨config, rfl⟩ := hG g hg
        show Safe home origin known₁ ((guard W config).reading.execute codec key _ scope)
        rw [IdempotencyGuard.execute_reading]
        exact execute_safe config hc key hrun

/-- What a nest of runs stores is backed, and so is what any program made of it stores. -/
theorem Nest.safe {p : Action W α} (hp : Nest origin p) (scope : Scope) (known : List (Nat × Nat)) :
    Safe home origin known (p scope) := by
  induction hp generalizing scope known with
  | pure a => trivial
  | scope => trivial
  | bind _ _ ihp ihf => exact Sound.bind (ihp scope known) fun known' a _ _ => ihf a scope known'
  | ask r hr => exact ⟨allowed_of_harmless hr, fun _ => trivial⟩
  | timer => exact fun _ => trivial
  | sleep n => trivial
  | hang => trivial
  | cutAt deadline _ ih => exact (ih scope known).cutAt deadline
  | within f _ ih => exact ih (f scope) known
  | run hR spec _ ih =>
    exact (run_sound hR spec (fun h scope known =>
      (ih h scope known).mono fun _ _ _ _ a _ => trivial)
      (P := fun _ _ => True) scope known).safe
  | execute config hR codec hc key spec _ ih =>
    exact execute_safe config hc key (run_tracked_sound hR spec ih scope)
  | mutate G hL hG hR codec hc x _ ih =>
    exact mutate_safe hL hG hc x (run_tracked_sound hR x.spec ih scope)

/-! ### Runs that join -/

/-- What a guarded run asks for that joins the transaction of a handle: unless a result is found,
its work in that transaction, and as soon as that has returned, its result is stored. Between the
two nothing is asked for but the time. -/
def joinedRun (config : IdempotencyConfig) (codec : ResultCodec (Origin × ρ)) (key : String)
    (work : Handle → Action W (Except Failure ρ)) (handle : Handle) :
    Program (service W) (Except Failure (Execution (Origin × ρ))) :=
  .call (.records (.get ((guard W config).recordKey key))) fun x =>
    match verdict codec x with
    | some v => .done v
    | none => (work handle (some handle)).bind fun
      | .error e => .done (.error e)
      | .ok a => store W config codec ((guard W config).recordKey key)
          (⟨handle.store, handle.tx, true⟩, a)

/-- What follows the limiter: its failure, or what it was asked for. -/
def unlessDenied {β : Type} (p : Program (service W) (Except Failure β)) :
    Except Failure Verdict → Program (service W) (Except Failure β)
  | .error f => .done (.error f)
  | .ok _ => p

section Joined

variable (config : IdempotencyConfig) (codec : ResultCodec (Origin × ρ)) (key : String)
variable (work : Handle → Action W (Except Failure ρ)) {handle : Handle}

theorem guardedRun_of_joined {R : Runner (Action W)} (spec : RunSpec) (h : handle.store = R.store) :
    guardedRun config R codec key spec work (some handle) =
      joinedRun config codec key work handle := by
  have henclosing : (Option.filter (fun h => h.store == R.store) (some handle)) = some handle := by
    simp [h]
  have hjoins : joins R (some handle) = true := by simp [joins, henclosing]
  unfold guardedRun joinedRun
  rw [run_of_enclosed spec henclosing, execute_eq, hjoins]
  refine congrArg (Program.call (S := service W) _) (funext fun x => ?_)
  cases verdict codec x with
  | some v => rfl
  | none =>
    show Program.bind (Program.bind _ _) _ = _
    rw [Program.bind_assoc]
    refine congrArg (Program.bind _) (funext fun r => ?_)
    cases r <;> rfl

theorem guardedMutation_of_joined {ν : Type} [Amount ν] {G : MutationGuard ν (Action W)}
    (hG : G.idempotency = some (guard W config).reading) {x : Mutation}
    (hx : x.idempotencyKey = some key) (h : handle.store = G.runner.store) :
    guardedMutation G codec x work (some handle) =
      (G.limiter.enforce x.rateKey G.rules (some handle)).bind
        (unlessDenied (joinedRun config codec key work handle)) := by
  refine congrArg (Program.bind _) (funext fun v => ?_)
  cases v with
  | error f => rfl
  | ok v =>
    show _ = joinedRun config codec key work handle
    rw [← guardedRun_of_joined config codec key work x.spec h, hG, hx]
    exact IdempotencyGuard.execute_reading _ codec _ key _

end Joined

/-! ### Every schedule -/

/-- A transaction was committed: the log has its commit, and that it succeeded. -/
def CommittedIn (home : Nat → Nat) (log : List (Step (service W) (Circumstances W)))
    (t : Nat × Nat) : Prop :=
  ∃ e ∈ log, e.deed.commit? home = some t

instance (home : Nat → Nat) (log : List (Step (service W) (Circumstances W))) (t : Nat × Nat) :
    Decidable (CommittedIn home log t) :=
  inferInstanceAs (Decidable (∃ e ∈ log, e.deed.commit? home = some t))

/-- A completed record is there. -/
def Present (s : Records) (r : IdempotencyRecord) : Prop :=
  r.isCompleted = true ∧ ∃ key ttl, s.table.get? key = some ⟨r, ttl⟩

/-- What is known is true of a log. -/
def Vouched (home : Nat → Nat) (log : List (Step (service W) (Circumstances W)))
    (known : List (Nat × Nat)) : Prop :=
  ∀ t ∈ known, CommittedIn home log t

/-- Every program is sound for true knowledge, and so is every record. -/
structure Sealed (home : Nat → Nat) (origin : List UInt8 → Option Origin)
    (c : Crowd (service W) Shared (Circumstances W) α) : Prop where
  tasks : ∀ i p, c.tasks i = some p → ∃ known, Vouched home c.log known ∧ Safe home origin known p
  records : ∀ key x, c.state.records.table.get? key = some x →
    ∃ known, Vouched home c.log known ∧ Backed home origin known x.record

variable {log : List (Step (service W) (Circumstances W))}

theorem Vouched.cons (h : Vouched home log known) (e : Step (service W) (Circumstances W)) :
    Vouched home (e :: log) known := by
  intro t ht
  obtain ⟨e', he', h'⟩ := h t ht
  exact ⟨e', .tail _ he', h'⟩

/-- What a program has learnt from a reply is true of the log in which the reply is noted. -/
theorem Vouched.learnt (h : Vouched home log known) (who : Nat) (o : Circumstances W)
    (r : Request W) (x : Reply W r) :
    Vouched home (⟨who, o, .call r x⟩ :: log) (learnt home known r x) := by
  intro t ht
  rcases List.mem_append.1 ht with ht | ht
  · exact ⟨_, .head _, Option.mem_toList.1 ht⟩
  · exact h.cons _ t ht

theorem Sealed.forget {c : Crowd (service W) Shared (Circumstances W) α} (h : Sealed home origin c)
    (who : Nat) :
    Sealed home origin (c.forget who) :=
  ⟨fun i p hp => h.tasks i p (c.tasks_forget who i hp), h.records⟩

theorem Sealed.advance {c : Crowd (service W) Shared (Circumstances W) α} {who : Nat}
    {o : Circumstances W} {p p' : Program (service W) α} {d : Deed (service W)} {s' : Shared}
    (h : Sealed home origin c) (ht : c.tasks who = some p)
    (hn : p.next? (setting home) o c.state = some (d, p', s')) :
    Sealed home origin (c.advance who o d p' s') := by
  obtain ⟨known, hv, hp⟩ := h.tasks who p ht
  have htasks :
      (∃ known, Vouched home (c.advance who o d p' s').log known ∧ Safe home origin known p') →
      ∀ i q, (c.advance who o d p' s').tasks i = some q →
        ∃ known, Vouched home (c.advance who o d p' s').log known ∧ Safe home origin known q := by
    intro hmoved i q hq
    rcases Crowd.tasks_advance_cases hq with ⟨-, rfl⟩ | ⟨-, hq⟩
    · exact hmoved
    · obtain ⟨known', hv', hq'⟩ := h.tasks i q hq
      exact ⟨known', hv'.cons _, hq'⟩
  have hold : ∀ key x, c.state.records.table.get? key = some x →
      ∃ known, Vouched home (c.advance who o d p' s').log known ∧
        Backed home origin known x.record := by
    intro key x hx
    obtain ⟨known', hv', hb⟩ := h.records key x hx
    exact ⟨known', hv'.cons _, hb⟩
  rcases hp.next? hn with ⟨rfl, rfl, hp'⟩ | ⟨r, hr, rfl, rfl, hp'⟩
  · exact ⟨htasks ⟨known, hv.cons _, hp'⟩, hold⟩
  · refine ⟨htasks ⟨_, hv.learnt who o r _, hp'⟩, fun key x hx => ?_⟩
    cases r with
    | database i q => exact hold key x hx
    | now => exact hold key x hx
    | other q => exact hold key x hx
    | records q =>
      rcases Records.step_present hx with hx | ⟨record, ttl, hq, -, rfl⟩
      · exact hold key x hx
      · -- the record is new, and its program was allowed to store it
        rcases hq with rfl | ⟨rfl, -⟩
        · exact ⟨known, hv.cons _, hr⟩
        · exact ⟨known, hv.cons _, hr⟩

/-- A record that is there tells of its work, which is committed unless it joined. -/
theorem Sealed.committed {c : Crowd (service W) Shared (Circumstances W) α}
    (h : Sealed home origin c) {r : IdempotencyRecord} (hr : Present c.state.records r) :
    ∃ o, origin r.result = some o ∧
      (o.joined = false → CommittedIn home c.log (o.transaction home)) := by
  obtain ⟨hc, key, ttl, hx⟩ := hr
  obtain ⟨known, hv, hb⟩ := h.records key _ hx
  obtain ⟨o, ho, hknown⟩ := hb hc
  exact ⟨o, ho, fun hj => hv _ (hknown hj)⟩

/-- At every point of every schedule of nested runs, every completed record tells of the work that
it comes from, and unless that work joined a transaction, its transaction has been committed. So all
records are backed by commits exactly if those of joined runs are. These are not waited for: a run
that joins is its work in the transaction around it, and its result is stored as soon as the work
has returned, with no commit in between, whatever comes after. -/
theorem completed_committed_unless_joined (home : Nat → Nat) (origin : List UInt8 → Option Origin)
    (databases : Nat → Database) (interval : Nat) (tasks : Nat → Option (Action W α))
    (htasks : ∀ i p, tasks i = some p → Nest origin p) (ms : List (Move (Circumstances W))) :
    let c := (Crowd.start ⟨databases, .empty interval⟩ fun i => (tasks i).map fun p => p none).play
      (setting home) ms
    (∀ r, Present c.state.records r → ∃ o, origin r.result = some o ∧
      (o.joined = false → CommittedIn home c.log (o.transaction home))) ∧
    ((∀ r, Present c.state.records r →
      ∃ o, origin r.result = some o ∧ CommittedIn home c.log (o.transaction home)) ↔
      ∀ r o, Present c.state.records r → origin r.result = some o → o.joined = true →
        CommittedIn home c.log (o.transaction home)) ∧
    (∀ (ρ : Type) (config : IdempotencyConfig) (codec : ResultCodec (Origin × ρ)) (key : String)
      (work : Handle → Action W (Except Failure ρ)) (handle : Handle),
      (∀ (R : Runner (Action W)) (spec : RunSpec), handle.store = R.store →
        guardedRun config R codec key spec work (some handle) =
          joinedRun config codec key work handle) ∧
      ∀ (ν : Type) [Amount ν] (G : MutationGuard ν (Action W)) (x : Mutation),
        G.idempotency = some (guard W config).reading → x.idempotencyKey = some key →
        handle.store = G.runner.store → guardedMutation G codec x work (some handle) =
          (G.limiter.enforce x.rateKey G.rules (some handle)).bind
            (unlessDenied (joinedRun config codec key work handle))) := by
  intro c
  have hstart : Sealed home origin
      (Crowd.start (ω := Circumstances W) ⟨databases, .empty interval⟩ fun i =>
        (tasks i).map fun p => p none) := by
    refine ⟨fun i p hp => ?_, fun key x hx => by simp [Crowd.start, Records.empty] at hx⟩
    obtain ⟨q, hq, rfl⟩ := Option.map_eq_some_iff.1 hp
    exact ⟨[], fun t ht => absurd ht List.not_mem_nil, (htasks i q hq).safe none []⟩
  have hsealed : Sealed home origin c :=
    Crowd.play_invariant (fun c who o p d p' s' hc ht hn => hc.advance ht hn)
      (fun c who hc => hc.forget who) hstart ms
  refine ⟨fun r hr => hsealed.committed hr, ⟨fun h r o hr ho _ => ?_, fun h r hr => ?_⟩,
    fun ρ config codec key work handle =>
      ⟨fun R spec hstore => guardedRun_of_joined config codec key work spec hstore,
        fun ν _ G x hG hx hstore => guardedMutation_of_joined config codec key work hG hx hstore⟩⟩
  · obtain ⟨o', ho', hcommitted⟩ := h r hr
    rw [ho, Option.some.injEq] at ho'
    rwa [ho']
  · obtain ⟨o, ho, hcommitted⟩ := hsealed.committed hr
    refine ⟨o, ho, ?_⟩
    cases hj : o.joined with
    | true => exact h r o hr ho hj
    | false => exact hcommitted hj

/-! ### A joined run whose work is discarded -/

/-- Results of one byte with their origin, for small numbers of stores and transactions. -/
def originCodec : ResultCodec (Origin × UInt8) where
  encode x :=
    if x.1.store < 256 ∧ x.1.tx < 256 then
      some [.ofNat x.1.store, .ofNat x.1.tx, if x.1.joined then 1 else 0, x.2]
    else none
  decode
    | [store, tx, joined, a] => some (⟨store.toNat, tx.toNat, joined == 1⟩, a)
    | _ => none

/-- The origin of a stored result. -/
def originOf (bytes : List UInt8) : Option Origin := (originCodec.decode bytes).map Prod.fst

theorem tells_originCodec : Tells originOf originCodec := by
  intro o a bytes h
  obtain ⟨store, tx, joined⟩ := o
  simp only [originCodec] at h
  split at h
  · obtain ⟨hs, ht⟩ := ‹_ ∧ _›
    cases h
    have hs' : (UInt8.ofNat store).toNat = store := UInt8.toNat_ofNat_of_lt' hs
    have ht' : (UInt8.ofNat tx).toNat = tx := UInt8.toNat_ofNat_of_lt' ht
    cases joined <;> simp [originOf, originCodec, hs', ht']
  · cases h

/-- A runner on the first store that tries again at once and tells nobody. -/
def oneStore : Runner (Action Nothing) where
  store := 0
  ask r _ := .ask (S := service Nothing) (.database 0 r)
  classify := Conflict.classify
  backoff := .none
  draw _ := 0
  observe _ _ _ := .done ()

theorem plain_oneStore : Plain oneStore := ⟨fun _ _ => rfl, fun _ _ _ => trivial⟩

/-- Work that inserts a row and returns a number. -/
def insertRow (h : Handle) : Action Nothing (Except Failure UInt8) := fun scope =>
  (oneStore.insert h "t" (.new "a" []) scope).bind fun _ => .done (.ok 7)

/-- A guarded run of it. -/
def guardedInsert : Action Nothing (Except Failure (Execution (Origin × UInt8))) :=
  guardedRun .standard oneStore originCodec "k" .standard insertRow

/-- A run that makes the guarded run and then fails. -/
def discarding : Action Nothing (Except Failure Unit) :=
  oneStore.run .standard fun _ scope =>
    (guardedInsert scope).bind fun _ => .done (.error (.rejected "declined"))

theorem nest_discarding : Nest originOf discarding :=
  .run plain_oneStore .standard fun _ => .bind
    (.execute .standard plain_oneStore originCodec tells_originCodec "k" .standard fun _ =>
      .bind (.ask _ trivial) fun _ => .pure _)
    fun _ => .pure _

/-- The run begins, the guarded run inside finds no record, inserts its row and stores its result,
and the run is rolled back. -/
theorem completed_committed_unless_joined_discarding :
    let c := (Crowd.start fresh fun i =>
      (if i = 0 then some discarding else none).map fun p => p none).play
      (setting id) (atOnce [0, 0, 0, 0, 0, 0])
    let handle : Handle := ⟨0, 0, RunSpec.standard.context 1⟩
    (∀ r, Present c.state.records r → ∃ o, originOf r.result = some o ∧
      (o.joined = false → CommittedIn id c.log (o.transaction id))) ∧
    ((∀ r, Present c.state.records r →
      ∃ o, originOf r.result = some o ∧ CommittedIn id c.log (o.transaction id)) ↔
      ∀ r o, Present c.state.records r → originOf r.result = some o → o.joined = true →
        CommittedIn id c.log (o.transaction id)) ∧
    guardedInsert (some handle) = joinedRun .standard originCodec "k" insertRow handle := by
  intro c handle
  have h := completed_committed_unless_joined id originOf (fun _ => .empty) 4
    (fun i => if i = 0 then some discarding else none)
    (fun i p hp => by
      split at hp
      · cases hp
        exact nest_discarding
      · cases hp)
    (atOnce [0, 0, 0, 0, 0, 0])
  obtain ⟨hrecords, hall, hjoined⟩ := h
  exact ⟨hrecords, hall, (hjoined UInt8 .standard originCodec "k" insertRow handle).1 oneStore
    .standard rfl⟩

/-- The result of the joined run is replayed although its row is gone: the run around it has failed,
and nothing was ever committed. -/
theorem discarded_work_replays :
    let c := (Crowd.start fresh fun i =>
      (if i = 0 then some discarding else none).map fun p => p none).play
      (setting id) (atOnce [0, 0, 0, 0, 0, 0])
    c.tasks 0 = some (.done (.error (.rejected "declined"))) ∧
      (∃ r, Present c.state.records r ∧ originOf r.result = some ⟨0, 0, true⟩) ∧
      ¬ CommittedIn id c.log (0, 0) ∧
      (c.state.databases 0).commits = 0 ∧ (c.state.databases 0).get? "t" "a" = none ∧
      ∃ d s', (guardedInsert none).next? (setting id) epoch c.state =
        some (d, .done (.ok ⟨false, ⟨0, 0, true⟩, 7⟩), s') := by
  intro c
  have hpresent : Present c.state.records (.completed "idempotency:k" [0, 0, 1, 7] .epoch) :=
    ⟨rfl, "idempotency:k", _, rfl⟩
  refine ⟨rfl, ⟨_, hpresent, rfl⟩, ?_, rfl, rfl, _, _, rfl⟩
  decide

end Provenance

end GuardedWrites

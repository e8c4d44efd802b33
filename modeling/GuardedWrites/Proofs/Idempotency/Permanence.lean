import GuardedWrites.Proofs.Idempotency.Calls

/-!
# How long a completed key stays completed

Calls of both kinds on one key, nested in each other in any way, their steps mixed in any order.

* `Guarded` — programs made of such calls;
* `Stands` — a completed record is in force: the key is completed, and a new call runs nothing;
* `Undoes` — a deed that ends this: the record is removed, or replaced by an older one;
* `stands_iff` — a completed record stays in force for its time exactly if no deed undoes it;
* `failed_holder_undoes` — a call that fails while it holds the key removes the record that another
  has stored.
-/

namespace GuardedWrites

namespace Permanence

open Shared

variable {W : Service} {α : Type}

/-- Programs that touch the record of a key only through calls of a guard. -/
inductive Guarded (W : Service) (config : IdempotencyConfig) (key : String) :
    {α : Type} → Program (service W) α → Prop
  | done {α : Type} (a : α) : Guarded W config key (.done a)
  | bind {α β : Type} {p : Program (service W) α} {f : α → Program (service W) β}
      (hp : Guarded W config key p) (hf : ∀ a, Guarded W config key (f a)) :
        Guarded W config key (p.bind f)
  | ask (r : Request W) (hr : r.Elsewhere ((guard W config).recordKey key)) :
      Guarded W config key (.ask (S := service W) r)
  | timer : Guarded W config key (.timer .done)
  | sleep (ticks : Nat) : Guarded W config key (.sleep ticks (.done ()))
  | hang {α : Type} : Guarded W config key (.hang : Program (service W) α)
  | cutAt {α : Type} {p : Program (service W) α} (deadline : Nat) (hp : Guarded W config key p) :
      Guarded W config key (p.cutAt deadline)
  | execute {ρ : Type} (codec : ResultCodec ρ) {op : Program (service W) (Except Failure ρ)}
      (hop : Guarded W config key op) : Guarded W config key ((guard W config).execute codec key op)
  | executeExclusive {ρ : Type} (codec : ResultCodec ρ)
      {op : Program (service W) (Except Failure ρ)}
      (hop : Guarded W config key op) :
        Guarded W config key ((guard W config).executeExclusive codec key op)
  | wasCompleted : Guarded W config key ((guard W config).wasCompleted key)
  | getResult {ρ : Type} (codec : ResultCodec ρ) :
      Guarded W config key ((guard W config).getResult codec key)
  | clear : Guarded W config key ((guard W config).clear key)

/-- A request that stores nothing under a key but completed records with the usual time to live,
other than by a claim. -/
def Proper (config : IdempotencyConfig) (rk : String) : Request W → Prop
  | .records (.put r ttl) => r.key = rk → r.isCompleted = true ∧ ttl = config.recordTtl
  | _ => True

variable {config : IdempotencyConfig} {key : String}

theorem proper_of_elsewhere {rk : String} {r : Request W} (h : r.Elsewhere rk) :
    Proper config rk r := by
  cases r with
  | records r =>
    cases r with
    | put r ttl => exact fun hk => absurd hk h
    | _ => trivial
  | _ => trivial

theorem all_proper_store {ρ : Type} (codec : ResultCodec ρ) (rk : String) (a : ρ) :
    (store W config codec rk a).All (Proper config rk) := by
  unfold store
  cases codec.encode a with
  | none => trivial
  | some bytes => exact ⟨trivial, fun t => ⟨fun _ => ⟨rfl, rfl⟩, fun _ => trivial⟩⟩

theorem all_proper_settle {ρ : Type} (codec : ResultCodec ρ) (rk : String) (x : Except Failure ρ) :
    (settle W config codec rk x).All (Proper config rk) := by
  cases x with
  | error e => exact ⟨trivial, fun _ => trivial⟩
  | ok a => exact all_proper_store codec rk a

theorem all_proper_execute {ρ : Type} (codec : ResultCodec ρ)
    {op : Program (service W) (Except Failure ρ)}
    (hop : op.All (Proper config ((guard W config).recordKey key))) :
    ((guard W config).execute codec key op).All
      (Proper config ((guard W config).recordKey key)) := by
  rw [execute_eq]
  refine ⟨trivial, fun x => ?_⟩
  dsimp only
  split
  · trivial
  · refine hop.bind fun y => ?_
    cases y with
    | error e => trivial
    | ok a => exact all_proper_store codec _ a

theorem all_proper_executeExclusive {ρ : Type} (codec : ResultCodec ρ)
    {op : Program (service W) (Except Failure ρ)}
    (hop : op.All (Proper config ((guard W config).recordKey key))) :
    ((guard W config).executeExclusive codec key op).All
      (Proper config ((guard W config).recordKey key)) := by
  rw [executeExclusive_eq]
  refine ⟨trivial, fun x => ?_⟩
  dsimp only
  split
  · trivial
  · refine ⟨trivial, fun m => ⟨trivial, fun y => ?_⟩⟩
    rcases y with e | _ | _
    · trivial
    · exact ⟨trivial, fun _ => trivial⟩
    · dsimp only
      rw [runClaimed_eq]
      exact hop.bind (all_proper_settle codec _)

/-- Calls of a guard make proper requests. -/
theorem Guarded.all_proper {p : Program (service W) α} (h : Guarded W config key p) :
    p.All (Proper config ((guard W config).recordKey key)) := by
  induction h with
  | done a => trivial
  | bind _ _ ihp ihf => exact ihp.bind ihf
  | ask r hr => exact ⟨proper_of_elsewhere hr, fun _ => trivial⟩
  | timer => exact fun _ => trivial
  | sleep n => trivial
  | hang => trivial
  | cutAt deadline _ ih => exact ih.cutAt deadline
  | execute codec _ ih => exact all_proper_execute codec ih
  | executeExclusive codec _ ih => exact all_proper_executeExclusive codec ih
  | wasCompleted =>
    rw [wasCompleted_eq]
    refine ⟨trivial, fun x => ?_⟩
    cases x <;> trivial
  | getResult codec =>
    rw [IdempotencyGuard.getResult, replay_eq]
    exact ⟨trivial, fun _ => trivial⟩
  | clear =>
    refine ⟨trivial, fun x => ?_⟩
    cases x <;> trivial

/-! ### Records in force -/

/-- A program that is over with its next step, without having run the operation that it was
given. -/
def RunsNothing {ρ : Type} (home : Nat → Nat) (o : Circumstances W) (s : Shared)
    (p : Program (service W) (Except Failure (Execution ρ))) : Prop :=
  ∃ d v s', p.next? (setting home) o s = some (d, .done v, s') ∧
    ∀ x, v = .ok x → x.wasExecuted = false

/-- A record is in force: at every reading from now on until its time is over, the key counts as
completed, and a call that begins runs nothing. -/
def Stands (config : IdempotencyConfig) (key : String) (home : Nat → Nat) (r : IdempotencyRecord)
    (c : Crowd (service W) Shared (Circumstances W) α) : Prop :=
  ∀ o : Circumstances W, (∀ e ∈ c.log, e.circumstances.now ≤ o.now) →
    r.storedAt.elapsed o.now < config.recordTtl →
    (∃ d s', ((guard W config).wasCompleted key).next? (setting home) o c.state =
      some (d, .done (.ok true), s')) ∧
      ∀ (ρ : Type) (codec : ResultCodec ρ) (op : Program (service W) (Except Failure ρ)),
        RunsNothing home o c.state ((guard W config).execute codec key op) ∧
          RunsNothing home o c.state ((guard W config).executeExclusive codec key op)

/-- A deed that ends the force of a record: it removes the record of the key or stores an older
one. -/
def Undoes (rk : String) (r : IdempotencyRecord) (d : Deed (service W)) : Prop :=
  d.Removes rk ∨ ∃ r', d.Puts r' ∧ r'.key = rk ∧ r'.storedAt < r.storedAt

/-- What is stored under a key is a completed record no older than `r`. -/
def Kept (config : IdempotencyConfig) (rk : String) (r : IdempotencyRecord) (s : Records) : Prop :=
  ∃ r', s.table.get? rk = some ⟨r', config.recordTtl⟩ ∧ r'.isCompleted = true ∧
    r.storedAt ≤ r'.storedAt

variable {home : Nat → Nat} {r : IdempotencyRecord} {rk : String}

theorem isExpired_of_le {r' : IdempotencyRecord} {now : Moment} (h : r.storedAt ≤ r'.storedAt)
    (hr : r.storedAt.elapsed now < config.recordTtl) :
    StoredRecord.isExpired ⟨r', config.recordTtl⟩ now = false := by
  have hle : r'.storedAt.elapsed now ≤ r.storedAt.elapsed now :=
    Moment.elapsed_le_elapsed h (Moment.le_refl now)
  exact StoredRecord.isExpired_eq_false.2 (Span.lt_of_le_of_lt hle hr)

/-- A proper request within the time of a record keeps it, or a later one, unless it undoes it. -/
theorem Kept.answer {s : Shared} {o : Circumstances W} (h : Kept config rk r s.records)
    (hr : r.storedAt.elapsed o.now < config.recordTtl) {q : Request W} (hq : Proper config rk q)
    (hn : ¬ Undoes rk r (.call q ((setting home).answer o q s).1)) :
    Kept config rk r ((setting home).answer o q s).2.records := by
  obtain ⟨r', ht, hc, hle⟩ := h
  have hlive := isExpired_of_le hle hr
  cases q with
  | database i q => exact ⟨r', ht, hc, hle⟩
  | now => exact ⟨r', ht, hc, hle⟩
  | other q => exact ⟨r', ht, hc, hle⟩
  | records q =>
    by_cases hd : q.Displaces rk
    · cases q with
      | get k => exact hd.elim
      | putIfAbsent r'' ttl => exact hd.elim
      | remove k =>
        have hk : k = rk := hd
        subst hk
        exact absurd (.inl ⟨_, rfl⟩) hn
      | put r'' ttl =>
        obtain ⟨hc', rfl⟩ := hq hd
        have hle' : r.storedAt ≤ r''.storedAt :=
          Int.not_lt.1 fun hlt => hn (.inr ⟨r'', ⟨_, _, rfl⟩, hd, hlt⟩)
        have hk : r''.key = rk := hd
        subst hk
        have hlive' := StoredRecord.isExpired_eq_false.1 (isExpired_of_le hle' hr)
        exact ⟨r'', s.records.put_stores hlive', hc', hle'⟩
    · exact ⟨r', Records.step_keeps ht hlive hd, hc, hle⟩

theorem Kept.stands {c : Crowd (service W) Shared (Circumstances W) α}
    (h : Kept config ((guard W config).recordKey key) r c.state.records) :
    Stands config key home r c := by
  intro o _ hr
  obtain ⟨r', ht, hc, hle⟩ := h
  have hlive := Records.live?_eq_some.2 ⟨ht, isExpired_of_le hle hr⟩
  refine ⟨?_, fun ρ codec op => ?_⟩
  · obtain ⟨d, s', hn⟩ := next?_wasCompleted config home o c.state key
    rw [hlive, Option.any_some, hc] at hn
    exact ⟨d, s', hn⟩
  · obtain ⟨v, hv, hx⟩ := IdempotencyGuard.verdict_completed codec hc
    constructor
    · exact ⟨_, v, _, next?_execute_of_found hlive hv, hx⟩
    · exact ⟨_, v, _, next?_executeExclusive_of_found hlive hv, hx⟩

/-! ### Runs -/

variable {c : Crowd (service W) Shared (Circumstances W) α}

/-- All that is left of the programs makes proper requests. -/
def Ready (config : IdempotencyConfig) (rk : String)
    (c : Crowd (service W) Shared (Circumstances W) α) : Prop :=
  ∀ i p, c.tasks i = some p → p.All (Proper config rk)

theorem Ready.forget (h : Ready config rk c) (who : Nat) : Ready config rk (c.forget who) :=
  fun i p hp => h i p (c.tasks_forget who i hp)

/-- A step of a program that makes proper requests lets time pass or makes such a request. -/
theorem Ready.advance {who : Nat} {o : Circumstances W} {p p' : Program (service W) α}
    {d : Deed (service W)} {s' : Shared} (h : Ready config rk c) (ht : c.tasks who = some p)
    (hn : p.next? (setting home) o c.state = some (d, p', s')) :
    Ready config rk (c.advance who o d p' s') ∧ (d = .wait ∧ s' = c.state ∨
      ∃ q, Proper config rk q ∧ d = .call q ((setting home).answer o q c.state).1 ∧
        s' = ((setting home).answer o q c.state).2) := by
  obtain ⟨hp', hd⟩ := (h who p ht).next? hn
  refine ⟨fun i q hq => ?_, hd⟩
  rcases Crowd.tasks_advance_cases hq with ⟨-, rfl⟩ | ⟨-, hq⟩
  · exact hp'
  · exact h i q hq

/-- As long as no deed undoes it, a record is kept for its time. -/
theorem kept_play (hc : Ready config rk c) (hk : Kept config rk r c.state.records)
    (ms : List (Move (Circumstances W))) {later : List (Step (service W) (Circumstances W))}
    (hl : (c.play (setting home) ms).log = later ++ c.log)
    (hx : ∀ x ∈ later, r.storedAt.elapsed x.circumstances.now < config.recordTtl ∧
      ¬ Undoes rk r x.deed) :
    Kept config rk r (c.play (setting home) ms).state.records := by
  suffices h : Ready config rk (c.play (setting home) ms) ∧
      ∃ later, (c.play (setting home) ms).log = later ++ c.log ∧
      ((∀ x ∈ later, r.storedAt.elapsed x.circumstances.now < config.recordTtl ∧
        ¬ Undoes rk r x.deed) →
        Kept config rk r (c.play (setting home) ms).state.records) by
    obtain ⟨-, later', hl', hk'⟩ := h
    rw [hl] at hl'
    exact hk' fun x hx' => hx x (List.append_cancel_right hl' ▸ hx')
  -- the log grows at its head: the invariant is about the steps that came on top of `c.log`
  refine Crowd.play_invariant (I := fun c' => Ready config rk c' ∧
    ∃ later, c'.log = later ++ c.log ∧
    ((∀ x ∈ later, r.storedAt.elapsed x.circumstances.now < config.recordTtl ∧
      ¬ Undoes rk r x.deed) →
      Kept config rk r c'.state.records)) ?_ ?_ ⟨hc, [], rfl, fun _ => hk⟩ ms
  · intro c' who o p d p' s' hI ht hn
    obtain ⟨hc', later, hl', hk'⟩ := hI
    obtain ⟨hr, hd⟩ := hc'.advance ht hn
    refine ⟨hr, ⟨who, o, d⟩ :: later, congrArg _ hl', fun hx => ?_⟩
    have hk := hk' fun x hx' => hx x (.tail _ hx')
    obtain ⟨hlive, hu⟩ := hx _ (.head _)
    rcases hd with ⟨rfl, rfl⟩ | ⟨q, hq, rfl, rfl⟩
    · exact hk
    · exact hk.answer hlive hq hu
  · intro c' who hI
    exact ⟨hI.1.forget who, hI.2⟩

/-- A record that was stored with the last step is kept, unless it was past its time at once. -/
theorem kept_of_put {s : Shared} {tasks : Nat → Option (Program (service W) α)}
    (htasks : Ready config rk (Crowd.start s tasks)) (ms : List (Move (Circumstances W)))
    {e : Step (service W) (Circumstances W)} {earlier : List (Step (service W) (Circumstances W))}
    (hl : ((Crowd.start s tasks).play (setting home) ms).log = e :: earlier) (hr : e.deed.Puts r)
    (hk : r.key = rk)
    (hlive : r.storedAt.elapsed e.circumstances.now < config.recordTtl) :
    Kept config rk r ((Crowd.start s tasks).play (setting home) ms).state.records := by
  suffices h : Ready config rk ((Crowd.start s tasks).play (setting home) ms) ∧
      ∀ e earlier, ((Crowd.start s tasks).play (setting home) ms).log = e :: earlier →
        e.deed.Puts r →
        r.storedAt.elapsed e.circumstances.now < config.recordTtl →
        Kept config rk r ((Crowd.start s tasks).play (setting home) ms).state.records from
    h.2 e earlier hl hr hlive
  refine Crowd.play_invariant (I := fun c => Ready config rk c ∧ ∀ e earlier, c.log = e :: earlier →
    e.deed.Puts r → r.storedAt.elapsed e.circumstances.now < config.recordTtl →
    Kept config rk r c.state.records) ?_ ?_ ⟨htasks,
      fun e earlier h => by simp [Crowd.start] at h⟩ ms
  · intro c who o p d p' s' hI ht hn
    obtain ⟨hready, hd⟩ := hI.1.advance ht hn
    refine ⟨hready, fun e earlier he hputs hlive => ?_⟩
    obtain ⟨rfl, -⟩ := List.cons.inj he
    obtain ⟨ttl, x, hx⟩ := hputs
    rcases hd with ⟨rfl, -⟩ | ⟨q, hq, rfl, rfl⟩
    · cases hx
    · cases hx
      obtain ⟨hcomp, rfl⟩ := hq hk
      subst hk
      exact ⟨r, c.state.records.put_stores hlive, hcomp, Moment.le_refl _⟩
  · intro c who hI
    exact ⟨hI.1.forget who, hI.2⟩

/-- A record is not in force if no record is alive at some later reading within its time. -/
theorem not_stands {o : Circumstances W} (hclock : ∀ e ∈ c.log, e.circumstances.now ≤ o.now)
    (hlive : r.storedAt.elapsed o.now < config.recordTtl)
    (hn : c.state.records.live? o.now ((guard W config).recordKey key) = none) :
    ¬ Stands config key home r c := by
  intro h
  obtain ⟨⟨d, s', hs⟩, -⟩ := h o hclock hlive
  obtain ⟨d', s'', hs'⟩ := next?_wasCompleted config home o c.state key
  rw [hn, Option.any_none, hs] at hs'
  cases hs'

theorem not_undoes_of_stands {who : Nat} {o : Circumstances W} {p p' : Program (service W) α}
    {d : Deed (service W)} {s' : Shared} (hc : Ready config ((guard W config).recordKey key) c)
    (ht : c.tasks who = some p) (hn : p.next? (setting home) o c.state = some (d, p', s'))
    (hclock : ∀ e ∈ (c.advance who o d p' s').log, e.circumstances.now ≤ o.now)
    (hlive : r.storedAt.elapsed o.now < config.recordTtl)
    (h : Stands config key home r (c.advance who o d p' s')) :
    ¬ Undoes ((guard W config).recordKey key) r d := by
  intro hundo
  rcases (hc.advance ht hn).2 with ⟨rfl, -⟩ | ⟨q, hq, rfl, rfl⟩
  · rcases hundo with ⟨x, hx⟩ | ⟨r', ⟨ttl, x, hx⟩, -⟩
    · cases hx
    · cases hx
  rcases hundo with ⟨x, hx⟩ | ⟨r', ⟨ttl, x, hx⟩, hk, hold⟩
  · cases hx
    refine not_stands hclock hlive ?_ h
    have hr := c.state.records.remove_absent ((guard W config).recordKey key)
    simp [Records.live?, Crowd.advance, Records.step, hr]
  · cases hx
    obtain ⟨-, rfl⟩ := hq hk
    -- the older record is past its time first, so there is a reading at which nothing is alive
    obtain ⟨t, hle, hin, hout⟩ := Moment.exists_reading hold hlive
    refine not_stands (o := { o with now := t })
      (fun e he => Moment.le_trans (hclock e he) hle) hin ?_ h
    cases hl : (c.state.records.put o.now r' config.recordTtl).live? t
      ((guard W config).recordKey key) with
    | none => exact hl
    | some y =>
      obtain ⟨hy, he⟩ := Records.live?_eq_some.1 hl
      rw [← hk] at hy
      rw [Records.put_replaces hy, StoredRecord.isExpired_eq_false] at he
      exact absurd hout (Span.not_le.2 he)

/-- After every schedule that undoes nothing a record is in force, and only then. -/
theorem not_undoes_of_play (hc : Ready config ((guard W config).recordKey key) c)
    (ms : List (Move (Circumstances W))) {later : List (Step (service W) (Circumstances W))}
    (hl : (c.play (setting home) ms).log = later ++ c.log)
    (hclock : (later ++ c.log).Pairwise fun x y => y.circumstances.now ≤ x.circumstances.now)
    (hlive : ∀ x ∈ later, r.storedAt.elapsed x.circumstances.now < config.recordTtl)
    (h : ∀ ms', ms' <+: ms → Stands config key home r (c.play (setting home) ms')) :
    ∀ x ∈ later, ¬ Undoes ((guard W config).recordKey key) r x.deed := by
  induction ms generalizing c later with
  | nil =>
    have hnil : later = [] := List.append_left_eq_self.1 hl.symm
    simp [hnil]
  | cons mv ms ih =>
    have h' : ∀ ms', ms' <+: ms →
        Stands config key home r ((c.move (setting home) mv).play (setting home) ms') :=
      fun ms' hp => h (mv :: ms') (List.cons_prefix_cons.2 ⟨rfl, hp⟩)
    rw [Crowd.play_cons] at hl
    rcases c.move_cases (E := setting home) mv with hm
      | ⟨who, hm⟩ | ⟨who, o, p, d, p', s', rfl, ht, hn, hm⟩
    · rw [hm] at hl h'
      exact ih hc hl hclock hlive h'
    · rw [hm] at hl h'
      exact ih (hc.forget who) hl hclock hlive h'
    · rw [hm] at hl h'
      obtain ⟨rest, hrest⟩ := (c.advance who o d p' s').log_play (E := setting home) ms
      have hlater : later = rest ++ [⟨who, o, d⟩] := by
        rw [hl] at hrest
        exact List.append_cancel_right (hrest.trans (by simp [Crowd.advance]))
      subst hlater
      have hclock' : (rest ++ (c.advance who o d p' s').log).Pairwise fun x y =>
          y.circumstances.now ≤ x.circumstances.now := by
        simpa [Crowd.advance] using hclock
      have hpast : ∀ e ∈ (c.advance who o d p' s').log, e.circumstances.now ≤ o.now := by
        have hp := (List.pairwise_append.1 hclock').2.1
        intro e he
        rcases List.mem_cons.1 he with rfl | he
        · exact Moment.le_refl _
        · exact (List.pairwise_cons.1 hp).1 e he
      intro x hx
      rcases List.mem_append.1 hx with hx | hx
      · exact ih (hc.advance ht hn).1 hrest hclock'
          (fun y hy => hlive y (List.mem_append_left _ hy)) h' x hx
      · rw [List.mem_singleton] at hx
        subst hx
        exact not_undoes_of_stands hc ht hn hpast (hlive _ (List.mem_append_right _ (.head _)))
          (h' [] List.nil_prefix)

/-- A completed record is in force at every point of a schedule that stays within its time exactly
if no deed of the schedule undoes it: if nobody clears the key, no call that held it fails, and no
older record is stored late. -/
theorem stands_iff (config : IdempotencyConfig) (key : String) (home : Nat → Nat) (s : Shared)
    (tasks : Nat → Option (Program (service W) α))
    (htasks : ∀ i p, tasks i = some p → Guarded W config key p)
    (ms ms' : List (Move (Circumstances W))) (r : IdempotencyRecord)
    {e : Step (service W) (Circumstances W)}
    {earlier later : List (Step (service W) (Circumstances W))}
    (hput : ((Crowd.start s tasks).play (setting home) ms).log = e :: earlier) (hr : e.deed.Puts r)
    (hk : r.key = (guard W config).recordKey key)
    (hlog : ((Crowd.start s tasks).play (setting home) (ms ++ ms')).log = later ++ e :: earlier)
    (hclock : (later ++ e :: earlier).Pairwise fun x y => y.circumstances.now ≤ x.circumstances.now)
    (hlive : ∀ x ∈ later ++ [e], r.storedAt.elapsed x.circumstances.now < config.recordTtl) :
    (∀ ms'', ms'' <+: ms' →
      Stands config key home r ((Crowd.start s tasks).play (setting home) (ms ++ ms''))) ↔
      ∀ x ∈ later, ¬ Undoes ((guard W config).recordKey key) r x.deed := by
  have hready : Ready config ((guard W config).recordKey key) (Crowd.start s tasks) :=
    fun i p hp => (htasks i p hp).all_proper
  have hready' : Ready config ((guard W config).recordKey key)
      ((Crowd.start s tasks).play (setting home) ms) :=
    Crowd.play_invariant (fun c who o p d p' s' hc ht hn => (hc.advance ht hn).1)
      (fun c who hc => hc.forget who) hready ms
  have hkept := kept_of_put hready ms hput hr hk (hlive e (List.mem_append_right _ (.head _)))
  simp only [Crowd.play_append] at hlog ⊢
  rw [← hput] at hlog hclock
  constructor
  · exact not_undoes_of_play hready' ms' hlog hclock fun x hx => hlive x (List.mem_append_left _ hx)
  · intro hn ms'' hpre
    obtain ⟨rest, rfl⟩ := hpre
    apply Kept.stands
    obtain ⟨mid, hmid⟩ :=
      ((Crowd.start s tasks).play (setting home) ms).log_play (E := setting home) ms''
    -- what the first moves add to the log is among what all of them add
    refine kept_play hready' hkept ms'' hmid fun x hx => ?_
    have hx : x ∈ later := by
      obtain ⟨new, hnew⟩ :=
        (((Crowd.start s tasks).play (setting home) ms).play (setting home) ms'').log_play
        (E := setting home) rest
      rw [Crowd.play_append, hnew, hmid, ← List.append_assoc] at hlog
      rw [← List.append_cancel_right hlog]
      exact List.mem_append_right _ hx
    exact ⟨hlive x (List.mem_append_left _ hx), hn x hx⟩

/-! ### A holder that fails -/

/-- A result of one byte, stored as it is. -/
def byteCodec : ResultCodec UInt8 := ⟨fun a => some [a], List.head?⟩

/-- An exclusive call whose operation looks at the clock and fails, and a plain call on the same key
that succeeds. -/
def failingHolder : Nat → Option (Program (service Nothing) (Except Failure (Execution UInt8)))
  | 0 => some ((guard Nothing .standard).executeExclusive byteCodec "k"
      ((Program.ask (S := service Nothing) .now).bind fun _ =>
        .done (.error (.rejected "declined"))))
  | 1 => some ((guard Nothing .standard).execute byteCodec "k" (.done (.ok 7)))
  | _ => none

/-- What is left of the failing call after its operation has looked at the clock. -/
def lastSteps : List (Step (service Nothing) (Circumstances Nothing)) :=
  [⟨0, epoch, .call (.records (.remove "idempotency:k")) (.ok ())⟩, ⟨0, epoch, .call .now .epoch⟩]

theorem failingHolder_guarded (i : Nat)
    (p : Program (service Nothing) (Except Failure (Execution UInt8)))
    (hp : failingHolder i = some p) :
    Guarded Nothing .standard "k" p := by
  unfold failingHolder at hp
  split at hp
  · cases hp
    exact .executeExclusive byteCodec (.bind (.ask _ trivial) fun _ => .done _)
  · cases hp
    exact .execute byteCodec (.done _)
  · cases hp

/-- The exclusive call claims the key, the plain call stores its result, and the exclusive call
fails. -/
theorem stands_iff_failingHolder :
    (∀ ms, ms <+: atOnce [0, 0] → Stands .standard "k" id (.completed "idempotency:k" [7] .epoch)
      ((Crowd.start fresh failingHolder).play (setting id) (atOnce [0, 0, 0, 1, 1, 1] ++ ms))) ↔
      ∀ x ∈ lastSteps, ¬ Undoes "idempotency:k" (.completed "idempotency:k" [7] .epoch) x.deed :=
  stands_iff .standard "k" id fresh failingHolder failingHolder_guarded (atOnce [0, 0, 0, 1, 1, 1])
    (atOnce [0, 0]) _ rfl ⟨_, _, rfl⟩ (by decide) rfl (by decide) (by decide)

/-- The failing call takes the result of the other one with it: well within its time the key counts
as never completed. -/
theorem failed_holder_undoes :
    let c := (Crowd.start fresh failingHolder).play (setting id) (atOnce [0, 0, 0, 1, 1, 1, 0, 0])
    let r := IdempotencyRecord.completed "idempotency:k" [7] .epoch
    (∃ e ∈ c.log, e.deed.Puts r) ∧
      (c.log.Pairwise fun x y => y.circumstances.now ≤ x.circumstances.now) ∧
      (∀ x ∈ c.log, r.storedAt.elapsed x.circumstances.now < IdempotencyConfig.standard.recordTtl) ∧
      ¬ Stands .standard "k" id r c :=
  ⟨⟨⟨1, epoch, _⟩, .tail _ (.tail _ (.head _)), _, _, rfl⟩, by decide, by decide,
    not_stands (o := epoch) (by decide) (by decide) rfl⟩

end Permanence

end GuardedWrites

import GuardedWrites.Proofs.Idempotency.Calls

/-!
# Exclusive calls exclude each other

Any number of exclusive calls on one key, their steps mixed in any order, each of them dropped at
any point.

* `Contest` — the calls;
* `Contest.Holds` — a call has claimed the key and is not over;
* `Contest.Timely` — nobody holds the key for longer than a marker lives;
* `Contest.Safe` — the invariant: whoever holds the key is the one whose marker is stored;
* `Contest.exclusive_calls_exclude` — at most one call holds the key, nobody claims it while a
  completed record lives, and a failed operation leaves it free.
-/

namespace GuardedWrites

open Shared

/-- Exclusive calls on one key. What they run leaves the record of the key alone, and a result that
is stored can be read again. -/
structure Contest (W : Service) (ρ : Type) where
  config : IdempotencyConfig
  codec : ResultCodec ρ
  key : String
  operation : Nat → Option (Program (service W) (Except Failure ρ))
  elsewhere : ∀ i op, operation i = some op →
    op.All (Request.Elsewhere ((guard W config).recordKey key))
  decodes : ∀ a bytes, codec.encode a = some bytes → codec.decode bytes = some a

namespace Contest

variable {W : Service} {ρ : Type} (C : Contest W ρ)

/-- The key of the record that the calls compete for. -/
def recordKey : String := (guard W C.config).recordKey C.key

/-- A call that runs `op`. -/
def call (op : Program (service W) (Except Failure ρ)) :
    Program (service W) (Except Failure (Execution ρ)) :=
  (guard W C.config).executeExclusive C.codec C.key op

/-- A call whose claim succeeded, while `op` is left of what it runs. -/
def claimed (op : Program (service W) (Except Failure ρ)) :
    Program (service W) (Except Failure (Execution ρ)) :=
  (guard W C.config).runClaimed C.codec C.recordKey op

/-- The calls by number. -/
def calls (i : Nat) : Option (Program (service W) (Except Failure (Execution ρ))) :=
  (C.operation i).map C.call

end Contest

/-- Calls at work on what they share. -/
abbrev Scene (W : Service) (ρ : Type) :=
  Crowd (service W) Shared (Circumstances W) (Except Failure (Execution ρ))

/-- The time on the marker, if a deed is a claim of the key that succeeded. -/
def Deed.claim? {W : Service} (key : String) : Deed (service W) → Option Moment
  | .call (.records (.putIfAbsent r _)) (.ok true) => if r.key = key then some r.storedAt else none
  | _ => none

namespace Contest

variable {W : Service} {ρ : Type} (C : Contest W ρ)

/-- The time on the marker of call `i`, if its claim is in the log. -/
def claimedAt (i : Nat) (log : List (Step (service W) (Circumstances W))) : Option Moment :=
  log.findSome? fun e => if e.who = i then e.deed.claim? C.recordKey else none

/-- Call `i` has claimed the key, its marker says `m`, and it is not over. -/
def Holds (c : Scene W ρ) (i : Nat) (m : Moment) : Prop :=
  C.claimedAt i c.log = some m ∧ ∃ p, c.tasks i = some p ∧ p.isDone = false

/-- The operation of call `i` is running. -/
def Running (c : Scene W ρ) (i : Nat) : Prop :=
  ∃ op, op.isDone = false ∧ op.All (Request.Elsewhere C.recordKey) ∧ c.tasks i = some (C.claimed op)

/-- Whenever a step is taken, each call that holds the key before or after it has a marker that is
still alive. -/
def Timely (home : Nat → Nat) : Scene W ρ → List (Move (Circumstances W)) → Prop :=
  Crowd.Throughout (setting home) fun c mv => ∀ who o, mv = .step who o → ∀ i m,
    C.Holds c i m ∨ C.Holds (c.move (setting home) mv) i m → m.elapsed o.now < C.config.lockTtl

/-- A marker from `m` is stored, as there was no record. -/
abbrev claimDeed (m : Moment) : Deed (service W) :=
  .call (.records (.putIfAbsent (.pending C.recordKey m) C.config.lockTtl)) (.ok true)

/-- A result is stored, whatever was there. -/
abbrev putDeed (bytes : List UInt8) (t : Moment) : Deed (service W) :=
  .call (.records (.put (.completed C.recordKey bytes t) C.config.recordTtl)) (.ok ())

/-- The record is removed, whatever it was. -/
abbrev removeDeed : Deed (service W) := .call (.records (.remove C.recordKey)) (.ok ())

/-- What is left of a call, and the time on the marker if it has claimed the key. -/
inductive Position (op : Program (service W) (Except Failure ρ)) :
    Option Moment → Program (service W) (Except Failure (Execution ρ)) → Prop
  | asking : Position op none (C.call op)
  | stamping : Position op none (.call .now fun m => Shared.claim W C.config C.codec C.key op m)
  | claiming (m : Moment) : Position op none (Shared.claim W C.config C.codec C.key op m)
  | again : Position op none (lookAgain W C.config C.codec C.key)
  | running (m : Moment) (q : Program (service W) (Except Failure ρ))
      (hq : q.All (Request.Elsewhere C.recordKey)) : Position op (some m) (C.claimed q)
  | storing (m t : Moment) (a : ρ) (bytes : List UInt8) (ha : C.codec.encode a = some bytes) :
      Position op (some m)
        (.call (.records (.put (.completed C.recordKey bytes t) C.config.recordTtl)) fun _ =>
          .done (.ok ⟨true, a⟩))
  | ended (h : Option Moment) (v : Except Failure (Execution ρ)) : Position op h (.done v)

/-- What one step of a call is for the key, with what is left of the call and of the records. -/
inductive Turn (op : Program (service W) (Except Failure ρ)) (h : Option Moment) (now : Moment)
    (s : Records) :
    Deed (service W) → Program (service W) (Except Failure (Execution ρ)) → Records → Prop
  /-- Nothing that matters to a record that is alive. -/
  | quiet {d : Deed (service W)} {p : Program (service W) (Except Failure (Execution ρ))}
      {s' : Records} (hp : C.Position op h p) (hd : d.claim? C.recordKey = none)
      (hn : ∀ r x, d = .call (.records r) x → ¬ r.Displaces C.recordKey)
      (hs : ∀ x, s.table.get? C.recordKey = some x → x.isExpired now = false →
        s'.table.get? C.recordKey = some x) : Turn op h now s d p s'
  /-- The claim succeeds. -/
  | claims (m : Moment) (hh : h = none) (hl : s.live? now C.recordKey = none) :
      Turn op h now s (C.claimDeed m) (C.claimed op)
        (s.put now (.pending C.recordKey m) C.config.lockTtl)
  /-- The result is stored. -/
  | puts (m t : Moment) (a : ρ) (bytes : List UInt8) (hh : h = some m)
      (ha : C.codec.encode a = some bytes) :
      Turn op h now s (C.putDeed bytes t) (.done (.ok ⟨true, a⟩))
        (s.put now (.completed C.recordKey bytes t) C.config.recordTtl)
  /-- The marker is removed. -/
  | removes (m : Moment) (e : Failure) (hh : h = some m) :
      Turn op h now s C.removeDeed (.done (.error e)) (s.remove C.recordKey)

variable {C} {home : Nat → Nat} {o : Circumstances W} {s s' : Shared} {d : Deed (service W)}
variable {op : Program (service W) (Except Failure ρ)} {h : Option Moment}
variable {p p' : Program (service W) (Except Failure (Execution ρ))}

/-- A step that asks nothing of the records is quiet. -/
theorem Turn.still {now : Moment} {records : Records} (hp : C.Position op h p)
    (hd : d.claim? C.recordKey = none) (hn : ∀ r x, d ≠ .call (.records r) x) :
    C.Turn op h now records d p records :=
  .quiet hp hd (fun r x h => absurd h (hn r x)) fun _ hx _ => hx

/-- A step that asks for something other than the record of the key is quiet. -/
theorem Turn.of_elsewhere {r : Request W} (hr : r.Elsewhere C.recordKey) (hp : C.Position op h p) :
    C.Turn op h o.now s.records (.call r ((setting home).answer o r s).1) p
      ((setting home).answer o r s).2.records := by
  cases r with
  | records r =>
    have hr : r.key ≠ C.recordKey := hr
    refine .quiet hp ?_ ?_ fun x hx ha => ?_
    · cases r with
      | putIfAbsent r ttl =>
        have hr : r.key ≠ C.recordKey := hr
        simp only [setting_records, Deed.claim?]
        split <;> simp_all
      | get k => rfl
      | put r ttl => rfl
      | remove k => rfl
    · intro q x hq
      cases hq
      exact RecordStore.Request.not_displaces_of_key_ne hr
    · exact Records.step_keeps hx ha (RecordStore.Request.not_displaces_of_key_ne hr)
  | database i r => exact .still hp rfl (by simp)
  | now => exact .still hp rfl (by simp)
  | other r => exact .still hp rfl (by simp)

theorem Turn.of_get (hp : C.Position op h p) :
    C.Turn op h o.now s.records (.call (.records (.get C.recordKey))
      ((setting home).answer o (.records (.get C.recordKey)) s).1) p
      ((setting home).answer o (.records (.get C.recordKey)) s).2.records := by
  refine .quiet hp rfl ?_ fun x hx ha => Records.step_keeps hx ha fun h => h
  intro q x hq
  cases hq
  exact fun h => h

/-- The step of an exclusive call is a turn of it: the one place where the protocol is taken
apart. -/
theorem Position.turn (hp : C.Position op h p)
    (hn : p.next? (setting home) o s = some (d, p', s')) :
    C.Turn op h o.now s.records d p' s'.records := by
  cases hp with
  | asking =>
    rw [call, executeExclusive_eq] at hn
    obtain ⟨rfl, rfl, rfl⟩ := Program.next?_call hn
    apply Turn.of_get
    dsimp only
    split
    · exact .ended none _
    · exact .stamping
  | stamping =>
    obtain ⟨rfl, rfl, rfl⟩ := Program.next?_call hn
    exact .of_elsewhere trivial (.claiming _)
  | claiming m =>
    cases hl : s.records.live? o.now C.recordKey with
    | none =>
      rw [next?_claim_of_free hl] at hn
      cases hn
      exact .claims m rfl hl
    | some y =>
      rw [next?_claim_of_taken hl] at hn
      cases hn
      refine .quiet .again rfl ?_ fun x hx _ => hx
      intro r x hq
      cases hq
      exact fun h => h
  | again =>
    obtain ⟨rfl, rfl, rfl⟩ := Program.next?_call hn
    exact .of_get (.ended none _)
  | running m q hq =>
    rw [claimed, runClaimed_eq] at hn
    cases hd : q.isDone with
    | false =>
      -- the step is one of the operation, which leaves the record of the key alone
      rw [Program.next?_bind hd] at hn
      obtain ⟨⟨d', q', s''⟩, hq', hx⟩ := Option.map_eq_some_iff.1 hn
      cases hx
      obtain ⟨hq'', hd⟩ := hq.next? hq'
      have hp : C.Position op (some m) (C.claimed q') := .running m q' hq''
      rw [claimed, runClaimed_eq] at hp
      rcases hd with ⟨rfl, rfl⟩ | ⟨r, hr, rfl, rfl⟩
      · exact .still hp rfl (by simp)
      · exact .of_elsewhere hr hp
    | true =>
      -- the operation is over: its marker is removed, or its result is on the way to the store
      obtain ⟨r, rfl, hr⟩ := Program.bind_of_isDone hd (settle W C.config C.codec C.recordKey)
      rw [hr] at hn
      cases r with
      | error e =>
        obtain ⟨rfl, rfl, rfl⟩ := Program.next?_call hn
        exact .removes m e rfl
      | ok a =>
        unfold settle store at hn
        cases ha : C.codec.encode a with
        | none => simp [ha, Program.next?] at hn
        | some bytes =>
          simp only [ha] at hn
          obtain ⟨rfl, rfl, rfl⟩ := Program.next?_call hn
          exact .of_elsewhere trivial (.storing m _ a bytes ha)
  | storing m t a bytes ha =>
    obtain ⟨rfl, rfl, rfl⟩ := Program.next?_call hn
    exact .puts m t a bytes rfl ha
  | ended h v => simp [Program.next?] at hn

/-! ### Who holds the key -/

variable {c : Scene W ρ} {who i : Nat} {m : Moment}

theorem claimedAt_advance_of_ne (hi : i ≠ who) (c : Scene W ρ) :
    C.claimedAt i (c.advance who o d p' s').log = C.claimedAt i c.log := by
  have hw : ¬ who = i := fun e => hi e.symm
  simp [claimedAt, Crowd.advance, hw]

theorem claimedAt_advance_of_none (hd : d.claim? C.recordKey = none) (c : Scene W ρ) :
    C.claimedAt i (c.advance who o d p' s').log = C.claimedAt i c.log := by
  simp [claimedAt, Crowd.advance, hd]

theorem claimedAt_advance_self (hd : d.claim? C.recordKey = some m) (c : Scene W ρ) :
    C.claimedAt who (c.advance who o d p' s').log = some m := by
  simp [claimedAt, Crowd.advance, hd]

theorem holds_advance_of_ne (hi : i ≠ who) :
    C.Holds (c.advance who o d p' s') i m ↔ C.Holds c i m := by
  simp only [Holds, claimedAt_advance_of_ne hi, c.tasks_advance_of_ne hi]

/-- Who holds the key after a step that is no claim has held it before. -/
theorem holds_of_advance (hd : d.claim? C.recordKey = none) (ht : c.tasks who = some p)
    (hn : p.next? (setting home) o c.state = some (d, p', s'))
    (h : C.Holds (c.advance who o d p' s') i m) :
    C.Holds c i m := by
  by_cases hi : i = who
  · subst hi
    exact ⟨(claimedAt_advance_of_none hd c).symm.trans h.1, p, ht, Program.isDone_of_next? hn⟩
  · exact (holds_advance_of_ne hi).1 h

theorem holds_of_forget (h : C.Holds (c.forget who) i m) : C.Holds c i m := by
  obtain ⟨hc, q, hq, hd⟩ := h
  exact ⟨hc, q, c.tasks_forget who i hq, hd⟩

/-- Nobody holds the key after the last step of the one that held it. -/
theorem not_holds_after_last {v : Except Failure (Execution ρ)} (hm : C.Holds c who m)
    (hs : ∀ i j m m', C.Holds c i m → C.Holds c j m' → i = j) (i : Nat) (m' : Moment) :
    ¬ C.Holds (c.advance who o d (.done v) s') i m' := by
  intro hi
  by_cases hw : i = who
  · subst hw
    obtain ⟨-, q, hq, hd⟩ := hi
    rw [c.tasks_advance_self] at hq
    cases hq
    simp [Program.isDone] at hd
  · exact hw (hs i who m' m ((holds_advance_of_ne hw).1 hi) hm)

/-! ### The invariant -/

/-- What is stored and what is in the log agree with who holds the key. -/
structure Safe (C : Contest W ρ) (c : Scene W ρ) : Prop where
  positions : ∀ i p, c.tasks i = some p →
    ∃ op, C.operation i = some op ∧ C.Position op (C.claimedAt i c.log) p
  /-- The marker that is stored is the one of whoever holds the key. -/
  marked : ∀ i m, C.Holds c i m →
    c.state.records.table.get? C.recordKey = some ⟨.pending C.recordKey m, C.config.lockTtl⟩
  single : ∀ i j m m', C.Holds c i m → C.Holds c j m' → i = j
  results : ∀ e ∈ c.log, ∀ r, e.deed.Puts r → r.key = C.recordKey →
    r.isCompleted = true ∧ ∃ a, C.codec.encode a = some r.result
  /-- As long as a completed record lives it is stored, and nobody has claimed the key since. -/
  settled : ∀ later e earlier r, c.log = later ++ e :: earlier → e.deed.Puts r →
  r.key = C.recordKey →
    (∀ x ∈ later ++ [e], r.storedAt.elapsed x.circumstances.now < C.config.recordTtl) →
    c.state.records.table.get? C.recordKey = some ⟨r, C.config.recordTtl⟩ ∧
      (∀ x ∈ later, x.deed.claim? C.recordKey = none) ∧ ∀ i m, ¬ C.Holds c i m

theorem Safe.start (C : Contest W ρ) (s : Shared) : C.Safe (Crowd.start s C.calls) := by
  have hh : ∀ i m, ¬ C.Holds (Crowd.start s C.calls) i m := by
    intro i m h
    have hc : C.claimedAt i [] = some m := h.1
    simp [claimedAt] at hc
  refine ⟨fun i p hp => ?_, fun i m h => absurd h (hh i m), fun i j m m' h =>
    absurd h (hh i m), ?_, ?_⟩
  · obtain ⟨op, hop, rfl⟩ := Option.map_eq_some_iff.1 hp
    exact ⟨op, hop, .asking⟩
  · simp [Crowd.start]
  · intro later e earlier r hl
    simp [Crowd.start] at hl

theorem Safe.forget (hc : C.Safe c) (who : Nat) : C.Safe (c.forget who) where
  positions i p hp := hc.positions i p (c.tasks_forget who i hp)
  marked i m h := hc.marked i m (holds_of_forget h)
  single i j m m' h h' := hc.single i j m m' (holds_of_forget h) (holds_of_forget h')
  results := hc.results
  settled later e earlier r hl he hr hx := by
    obtain ⟨ht, hn, hh⟩ := hc.settled later e earlier r hl he hr hx
    exact ⟨ht, hn, fun i m h => hh i m (holds_of_forget h)⟩

theorem Safe.positions_advance (hc : C.Safe c) (hop : C.operation who = some op)
    (hp : C.Position op (C.claimedAt who (c.advance who o d p' s').log) p') (i : Nat)
    (q : Program (service W) (Except Failure (Execution ρ)))
    (hq : (c.advance who o d p' s').tasks i = some q) :
    ∃ op, C.operation i = some op ∧
      C.Position op (C.claimedAt i (c.advance who o d p' s').log) q := by
  rcases Crowd.tasks_advance_cases hq with ⟨rfl, rfl⟩ | ⟨hi, hq⟩
  · exact ⟨op, hop, hp⟩
  · rw [claimedAt_advance_of_ne hi]
    exact hc.positions i q hq

theorem Safe.results_advance (hc : C.Safe c) (hd : ∀ r, d.Puts r → r.key ≠ C.recordKey) :
    ∀ e ∈ (c.advance who o d p' s').log, ∀ r, e.deed.Puts r → r.key = C.recordKey →
      r.isCompleted = true ∧ ∃ a, C.codec.encode a = some r.result := by
  intro e he r hr hk
  rcases List.mem_cons.1 he with rfl | he
  · exact absurd hk (hd r hr)
  · exact hc.results e he r hr hk

/-- What the completed records of the log are worth after a step that stores none, in terms of what
they were worth before it. -/
theorem Safe.settled_advance (hd : ∀ r, d.Puts r → r.key ≠ C.recordKey)
    (hs : ∀ r, c.state.records.table.get? C.recordKey = some ⟨r, C.config.recordTtl⟩ →
      r.storedAt.elapsed o.now < C.config.recordTtl → (∀ i m, ¬ C.Holds c i m) →
      s'.records.table.get? C.recordKey = some ⟨r, C.config.recordTtl⟩ ∧
      d.claim? C.recordKey = none ∧ ∀ i m, ¬ C.Holds (c.advance who o d p' s') i m)
    (hc : C.Safe c) :
    ∀ later e earlier r, (c.advance who o d p' s').log = later ++ e :: earlier → e.deed.Puts r →
      r.key = C.recordKey →
      (∀ x ∈ later ++ [e], r.storedAt.elapsed x.circumstances.now < C.config.recordTtl) →
      s'.records.table.get? C.recordKey = some ⟨r, C.config.recordTtl⟩ ∧
        (∀ x ∈ later, x.deed.claim? C.recordKey = none) ∧
        ∀ i m, ¬ C.Holds (c.advance who o d p' s') i m := by
  intro later e earlier r hl he hr hx
  cases later with
  | nil =>
    obtain ⟨rfl, -⟩ := List.cons.inj hl
    exact absurd hr (hd r he)
  | cons x later =>
    obtain ⟨rfl, hl'⟩ := List.cons.inj hl
    obtain ⟨ht, hn, hh⟩ := hc.settled later e earlier r hl' he hr fun y hy => hx y (.tail _ hy)
    obtain ⟨ht', hd', hh'⟩ := hs r ht (hx _ (.head _)) hh
    refine ⟨ht', ?_, hh'⟩
    intro y hy
    rcases List.mem_cons.1 hy with rfl | hy
    · exact hd'
    · exact hn y hy

theorem Safe.quiet (hc : C.Safe c) (ht : c.tasks who = some p) (hop : C.operation who = some op)
    (hn : p.next? (setting home) o c.state = some (d, p', s'))
    (hy : ∀ i m, C.Holds c i m → m.elapsed o.now < C.config.lockTtl)
    (hp : C.Position op (C.claimedAt who c.log) p') (hd : d.claim? C.recordKey = none)
    (hr : ∀ r x, d = .call (.records r) x → ¬ r.Displaces C.recordKey)
    (hs : ∀ x, c.state.records.table.get? C.recordKey = some x → x.isExpired o.now = false →
      s'.records.table.get? C.recordKey = some x) : C.Safe (c.advance who o d p' s') := by
  have hb : ∀ i m, C.Holds (c.advance who o d p' s') i m → C.Holds c i m :=
    fun i m h => holds_of_advance hd ht hn h
  have hputs : ∀ r, d.Puts r → r.key ≠ C.recordKey := by
    intro r hputs
    obtain ⟨ttl, x, h⟩ := hputs
    exact hr _ x h
  refine ⟨?_, ?_, ?_, ?_, ?_⟩
  · exact hc.positions_advance hop (by rwa [claimedAt_advance_of_none hd])
  · intro i m h
    exact hs _ (hc.marked i m (hb i m h)) (StoredRecord.isExpired_eq_false.2 (hy i m (hb i m h)))
  · intro i j m m' h h'
    exact hc.single i j m m' (hb i m h) (hb j m' h')
  · exact hc.results_advance hputs
  · refine hc.settled_advance hputs fun r ht hx hh => ⟨?_, hd, fun i m h => hh i m (hb i m h)⟩
    exact hs _ ht (StoredRecord.isExpired_eq_false.2 hx)

/-- A claim that succeeds keeps the invariant: nobody can have held the key, since a marker would be
alive. -/
theorem Safe.claims (hc : C.Safe c) (hop : C.operation who = some op)
    (hy : ∀ i m',
      C.Holds c i m' ∨ C.Holds (c.advance who o (C.claimDeed m) (C.claimed op) s') i m' →
      m'.elapsed o.now < C.config.lockTtl)
    (hl : c.state.records.live? o.now C.recordKey = none)
    (hs : s'.records = c.state.records.put o.now (.pending C.recordKey m) C.config.lockTtl) :
    C.Safe (c.advance who o (C.claimDeed m) (C.claimed op) s') := by
  have hcl : (C.claimDeed m).claim? C.recordKey = some m := by
    simp [Deed.claim?, IdempotencyRecord.pending]
  have hfree : ∀ x, c.state.records.table.get? C.recordKey = some x → x.isExpired o.now = true := by
    intro x hx
    cases he : x.isExpired o.now with
    | true => rfl
    | false => simp [Records.live?_eq_some.2 ⟨hx, he⟩] at hl
  -- the marker of a holder would be stored and alive, and the claim refused
  have hb : ∀ i m', ¬ C.Holds c i m' := by
    intro i m' h
    have he := hfree _ (hc.marked i m' h)
    have hy : StoredRecord.isExpired ⟨.pending C.recordKey m', C.config.lockTtl⟩ o.now = false :=
      StoredRecord.isExpired_eq_false.2 (hy i m' (.inl h))
    simp [he] at hy
  have ha : ∀ i m', C.Holds (c.advance who o (C.claimDeed m) (C.claimed op) s') i m' →
      i = who ∧ m' = m := by
    intro i m' h
    by_cases hi : i = who
    · subst hi
      have hm := h.1
      rw [claimedAt_advance_self hcl] at hm
      exact ⟨rfl, (Option.some.inj hm).symm⟩
    · exact absurd ((holds_advance_of_ne hi).1 h) (hb i m')
  have hputs : ∀ r, (C.claimDeed m).Puts r → r.key ≠ C.recordKey := by
    intro r hr
    obtain ⟨ttl, x, hq⟩ := hr
    cases hq
  refine ⟨?_, ?_, ?_, ?_, ?_⟩
  · refine hc.positions_advance hop ?_
    rw [claimedAt_advance_self hcl]
    exact .running m op (C.elsewhere who op hop)
  · intro i m' h
    obtain ⟨rfl, rfl⟩ := ha i m' h
    show s'.records.table.get? C.recordKey = _
    rw [hs]
    exact c.state.records.put_stores (hy i m' (.inr h))
  · intro i j m' m'' h h'
    exact (ha i m' h).1.trans (ha j m'' h').1.symm
  · exact hc.results_advance hputs
  · refine hc.settled_advance hputs fun r ht hx _ => ?_
    have he := hfree _ ht
    have hx : StoredRecord.isExpired ⟨r, C.config.recordTtl⟩ o.now = false :=
      StoredRecord.isExpired_eq_false.2 hx
    simp_all

/-- The result of the one that holds the key is stored: it no longer holds the key, and nobody else
does. -/
theorem Safe.puts {a : ρ} {bytes : List UInt8} {t : Moment} (hc : C.Safe c)
    (hop : C.operation who = some op) (hm : C.Holds c who m) (ha : C.codec.encode a = some bytes)
    (hs : s'.records = c.state.records.put o.now (.completed C.recordKey bytes t)
      C.config.recordTtl) :
    C.Safe (c.advance who o (C.putDeed bytes t) (.done (.ok ⟨true, a⟩)) s') := by
  have hb :
      ∀ i m', ¬ C.Holds (c.advance who o (C.putDeed bytes t) (.done (.ok ⟨true, a⟩)) s') i m' :=
    not_holds_after_last hm hc.single
  refine ⟨?_, fun i m h => absurd h (hb i m), fun i j m m' h => absurd h (hb i m), ?_, ?_⟩
  · exact hc.positions_advance hop (.ended _ _)
  · intro e he r hr hk
    rcases List.mem_cons.1 he with rfl | he
    · obtain ⟨ttl, x, hq⟩ := hr
      cases hq
      exact ⟨rfl, a, ha⟩
    · exact hc.results e he r hr hk
  · intro later e earlier r hl he hr hx
    cases later with
    | nil =>
      obtain ⟨rfl, -⟩ := List.cons.inj hl
      obtain ⟨ttl, x, hq⟩ := he
      cases hq
      refine ⟨?_, by simp, hb⟩
      show s'.records.table.get? C.recordKey = _
      rw [hs]
      exact c.state.records.put_stores (hx _ (.head _))
    | cons x later =>
      -- while an earlier result is alive nobody holds the key, so nobody stores another
      obtain ⟨rfl, hl'⟩ := List.cons.inj hl
      obtain ⟨-, -, hh⟩ := hc.settled later e earlier r hl' he hr fun y hy => hx y (.tail _ hy)
      exact absurd hm (hh who m)

/-- The one that holds the key removes its marker. -/
theorem Safe.removes {v : Except Failure (Execution ρ)} (hc : C.Safe c)
    (hop : C.operation who = some op) (hm : C.Holds c who m) :
    C.Safe (c.advance who o C.removeDeed (.done v) s') := by
  have hb : ∀ i m', ¬ C.Holds (c.advance who o C.removeDeed (.done v) s') i m' :=
    not_holds_after_last hm hc.single
  have hputs : ∀ r, C.removeDeed.Puts r → r.key ≠ C.recordKey := by
    intro r hr
    obtain ⟨ttl, x, hq⟩ := hr
    cases hq
  refine ⟨?_, fun i m h => absurd h (hb i m), fun i j m m' h => absurd h (hb i m), ?_, ?_⟩
  · exact hc.positions_advance hop (.ended _ _)
  · exact hc.results_advance hputs
  · exact hc.settled_advance hputs fun r _ _ hh => absurd hm (hh who m)

theorem Safe.step (hc : C.Safe c) (ht : c.tasks who = some p)
    (hn : p.next? (setting home) o c.state = some (d, p', s'))
    (hy : ∀ i m, C.Holds c i m ∨ C.Holds (c.advance who o d p' s') i m →
      m.elapsed o.now < C.config.lockTtl) :
    C.Safe (c.advance who o d p' s') := by
  obtain ⟨op, hop, hp⟩ := hc.positions who p ht
  have hh : ∀ m, C.claimedAt who c.log = some m → C.Holds c who m :=
    fun m h => ⟨h, p, ht, Program.isDone_of_next? hn⟩
  -- the kinds of turn are the cases of the proof, whatever the call was about to do
  have hturn := hp.turn hn
  generalize hs : s'.records = records at hturn
  cases hturn with
  | quiet hp' hd hr hk =>
    subst hs
    exact hc.quiet ht hop hn (fun i m h => hy i m (.inl h)) hp' hd hr hk
  | claims m hm hl => exact hc.claims hop hy hl hs
  | puts m t a bytes hm ha => exact hc.puts hop (hh m hm) ha hs
  | removes m e hm => exact hc.removes hop (hh m hm)

/-! ### What the invariant says -/

/-- What a call does after its claim begins with no request about the record but the removal of the
marker. -/
theorem claimed_ne_call {q : Program (service W) (Except Failure ρ)}
    (hq : q.All (Request.Elsewhere C.recordKey)) {r : RecordStore.Request}
    (hr : r.key = C.recordKey) (hne : r ≠ .remove C.recordKey)
    {k : Reply W (.records r) → Program (service W) (Except Failure (Execution ρ))} :
    C.claimed q ≠ .call (.records r) k := by
  intro h
  rw [claimed, runClaimed_eq] at h
  cases hd : q.isDone with
  | false =>
    obtain ⟨k', rfl, -⟩ := Program.eq_call_of_bind_eq hd h
    exact hq.1 hr
  | true =>
    obtain ⟨x, rfl, hx⟩ := Program.bind_of_isDone hd (settle W C.config C.codec C.recordKey)
    rw [hx] at h
    cases x with
    | error e =>
      cases h
      exact hne rfl
    | ok a =>
      unfold settle store at h
      cases ha : C.codec.encode a with
      | none => simp [ha] at h
      | some bytes => simp [ha] at h

/-- A call that begins with a look at the clock and then with a claim has not claimed the key. -/
theorem claimed_ne_stamping {q : Program (service W) (Except Failure ρ)}
    (hq : q.All (Request.Elsewhere C.recordKey)) :
    C.claimed q ≠ .call .now fun m => Shared.claim W C.config C.codec C.key op m := by
  intro h
  rw [claimed, runClaimed_eq] at h
  cases hd : q.isDone with
  | false =>
    obtain ⟨k, rfl, hk⟩ := Program.eq_call_of_bind_eq hd h
    have hk := hk Moment.epoch
    rw [← runClaimed_eq] at hk
    exact claimed_ne_call (hq.2 _) rfl (by simp) hk
  | true =>
    obtain ⟨x, rfl, hx⟩ := Program.bind_of_isDone hd (settle W C.config C.codec C.recordKey)
    rw [hx] at h
    cases x with
    | error e => cases h
    | ok a =>
      unfold settle store at h
      cases ha : C.codec.encode a with
      | none => simp [ha] at h
      | some bytes =>
        simp only [ha] at h
        -- both begin with a look at the clock, but one goes on to store and the other to claim
        have hk := congrFun (eq_of_heq (Program.call.inj h).2) Moment.epoch
        cases hk

/-- A call in the middle of its operation, or at its end, has a claim in the log and holds the
key. -/
theorem Safe.holds_of_claimed {q : Program (service W) (Except Failure ρ)} (hc : C.Safe c)
    (ht : c.tasks i = some (C.claimed q)) (hq : q.All (Request.Elsewhere C.recordKey))
    (hl : (C.claimed q).isDone = false) : ∃ m, C.Holds c i m := by
  obtain ⟨op, -, hp⟩ := hc.positions i _ ht
  suffices hm : ∃ m, C.claimedAt i c.log = some m by
    obtain ⟨m, hm⟩ := hm
    exact ⟨m, hm, _, ht, hl⟩
  generalize hcq : C.claimed q = p at hp hl
  generalize C.claimedAt i c.log = h at hp
  cases hp with
  | asking =>
    rw [call, executeExclusive_eq] at hcq
    exact absurd hcq (claimed_ne_call hq rfl (by simp))
  | stamping => exact absurd hcq (claimed_ne_stamping hq)
  | claiming m => exact absurd hcq (claimed_ne_call hq rfl (by simp))
  | again => exact absurd hcq (claimed_ne_call hq rfl (by simp))
  | running m q' hq' => exact ⟨m, rfl⟩
  | storing m t a bytes ha => exact ⟨m, rfl⟩
  | ended h v => simp [Program.isDone] at hl

/-- What is promised of exclusive calls on one key. -/
structure Excluded (C : Contest W ρ) (home : Nat → Nat) (c : Scene W ρ) : Prop where
  /-- An operation runs only while its call holds the key. -/
  running_holds : ∀ i, C.Running c i → ∃ m, C.Holds c i m
  /-- At most one call holds the key. -/
  single : ∀ i j m m', C.Holds c i m → C.Holds c j m' → i = j
  /-- As long as a completed record lives, no call has claimed the key since, none holds it, and a
  call that begins is over at once with the result of the record. -/
  settled : ∀ later e earlier r, c.log = later ++ e :: earlier → e.deed.Puts r →
  r.key = C.recordKey →
    (∀ x ∈ later ++ [e], r.storedAt.elapsed x.circumstances.now < C.config.recordTtl) →
    (∀ x ∈ later, x.deed.claim? C.recordKey = none) ∧ (∀ i m, ¬ C.Holds c i m) ∧
      ∃ a, C.codec.decode r.result = some a ∧ ∀ j op o, c.tasks j = some (C.call op) →
        r.storedAt.elapsed o.now < C.config.recordTtl →
        (c.move (setting home) (.step j o)).tasks j = some (.done (.ok ⟨false, a⟩))
  /-- A call whose operation has failed ends with its error and leaves no record and nobody that
  holds the key, and the next call that takes its steps claims it. -/
  released : ∀ i e o, c.tasks i = some (C.claimed (.done (.error e))) →
    let c' := c.move (setting home) (.step i o)
    c'.tasks i = some (.done (.error e)) ∧ c'.state.records.table.get? C.recordKey = none ∧
      (∀ j m, ¬ C.Holds c' j m) ∧
      ∀ j op o₁ o₂ o₃, c'.tasks j = some (C.call op) →
        (c'.play (setting home) [.step j o₁, .step j o₂, .step j o₃]).tasks j = some (C.claimed op)

/-- A call that finds no record claims the key with its third step, if no other call steps in
between. -/
theorem call_claims {c : Scene W ρ} {j : Nat} (hr : c.state.records.table.get? C.recordKey = none)
    (ht : c.tasks j = some (C.call op)) (o₁ o₂ o₃ : Circumstances W) :
    (c.play (setting home) [.step j o₁, .step j o₂, .step j o₃]).tasks j = some (C.claimed op) := by
  have hl : c.state.records.live? o₃.now C.recordKey = none := by simp [Records.live?, hr]
  obtain ⟨c₁, h₁, hs₁, ht₁⟩ : ∃ c₁, c.move (setting home) (.step j o₁) = c₁ ∧ c₁.state = c.state ∧
      c₁.tasks j = some (.call .now fun m => Shared.claim W C.config C.codec C.key op m) :=
    ⟨_, Crowd.move_step ht (next?_executeExclusive_of_absent hr), rfl,
      c.tasks_advance_self _ _ _ _ _⟩
  obtain ⟨c₂, h₂, hs₂, ht₂⟩ : ∃ c₂, c₁.move (setting home) (.step j o₂) = c₂ ∧ c₂.state = c₁.state ∧
      c₂.tasks j = some (Shared.claim W C.config C.codec C.key op o₂.now) :=
    ⟨_, Crowd.move_step ht₁ rfl, rfl, c₁.tasks_advance_self _ _ _ _ _⟩
  rw [← hs₁, ← hs₂] at hl
  simp only [Crowd.play, List.foldl_cons, List.foldl_nil, h₁, h₂]
  rw [Crowd.move_step ht₂ (next?_claim_of_free hl)]
  exact c₂.tasks_advance_self _ _ _ _ _

theorem Safe.excluded (hc : C.Safe c) : C.Excluded home c where
  running_holds i h := by
    obtain ⟨q, hd, hq, ht⟩ := h
    refine hc.holds_of_claimed ht hq ?_
    rw [claimed, runClaimed_eq]
    exact Program.isDone_bind hd _
  single := hc.single
  settled later e earlier r hl he hr hx := by
    obtain ⟨ht, hn, hh⟩ := hc.settled later e earlier r hl he hr hx
    obtain ⟨hr', a, ha⟩ := hc.results e (by simp [hl]) r he hr
    refine ⟨hn, hh, a, C.decodes a _ ha, fun j op o hj ho => ?_⟩
    have hlive : c.state.records.live? o.now C.recordKey = some ⟨r, C.config.recordTtl⟩ :=
      Records.live?_eq_some.2 ⟨ht, StoredRecord.isExpired_eq_false.2 ho⟩
    have hv := IdempotencyGuard.verdict_decodes hr' (C.decodes a _ ha)
    rw [Crowd.move_step hj (next?_executeExclusive_of_found hlive hv)]
    exact c.tasks_advance_self _ _ _ _ _
  released i e o ht := by
    obtain ⟨m, hm⟩ := hc.holds_of_claimed ht trivial rfl
    have hmove : c.move (setting home) (.step i o) = c.advance i o C.removeDeed (.done (.error e))
        { c.state with records := c.state.records.remove C.recordKey } := Crowd.move_step ht rfl
    have hr : (c.move (setting home) (.step i o)).state.records.table.get? C.recordKey = none := by
      rw [hmove]
      exact c.state.records.remove_absent C.recordKey
    refine ⟨?_, hr, ?_, fun j op o₁ o₂ o₃ hj => call_claims hr hj o₁ o₂ o₃⟩
    · rw [hmove]
      exact c.tasks_advance_self _ _ _ _ _
    · rw [hmove]
      exact not_holds_after_last hm hc.single

/-- Exclusive calls exclude each other, in every order of their steps and whichever of them are
dropped, as long as no call holds the key for longer than its marker lives. -/
theorem exclusive_calls_exclude (C : Contest W ρ) (home : Nat → Nat) (s : Shared)
    (ms : List (Move (Circumstances W))) (ht : C.Timely home (Crowd.start s C.calls) ms) :
    C.Excluded home ((Crowd.start s C.calls).play (setting home) ms) := by
  apply Safe.excluded
  refine Crowd.play_invariant_under ?_ (fun c who hc => hc.forget who) (Safe.start C s) ht
  intro c who o p d p' s' hc hy hp hn
  refine hc.step hp hn fun i m h => hy who o rfl i m ?_
  rwa [Crowd.move_step hp hn]

/-- Whether every reading of a schedule is within the life of every marker of a log. -/
def inTime (log : List (Step (service W) (Circumstances W)))
    (ms : List (Move (Circumstances W))) : Bool :=
  log.all fun e => (e.deed.claim? C.recordKey).all fun m => ms.all fun
    | .step _ o => decide (m.elapsed o.now < C.config.lockTtl)
    | .drop _ => true

/-- A schedule is timely if its readings are within the life of every marker. -/
theorem timely_of_inTime {c : Scene W ρ} {ms ms' : List (Move (Circumstances W))}
    (hms : ∀ mv ∈ ms, mv ∈ ms') (h : C.inTime (c.play (setting home) ms).log ms' = true) :
    C.Timely home c ms := by
  induction ms generalizing c with
  | nil => trivial
  | cons mv ms ih =>
    refine ⟨?_, ih (fun x hx => hms x (.tail _ hx)) h⟩
    rintro who o rfl i m hm
    have hlog : ∃ e ∈ (c.play (setting home) (.step who o :: ms)).log,
        e.deed.claim? C.recordKey = some m := by
      have hfind : ∀ c : Scene W ρ, C.Holds c i m →
          ∃ e ∈ c.log, e.deed.claim? C.recordKey = some m := by
        intro c hc
        obtain ⟨e, he, hi⟩ := List.exists_of_findSome?_eq_some hc.1
        split at hi
        · exact ⟨e, he, hi⟩
        · cases hi
      rcases hm with hm | hm
      · obtain ⟨e, he, hc⟩ := hfind c hm
        exact ⟨e, c.mem_log_play _ he, hc⟩
      · obtain ⟨e, he, hc⟩ := hfind _ hm
        exact ⟨e, Crowd.mem_log_play ms he, hc⟩
    obtain ⟨e, he, hc⟩ := hlog
    have h := List.all_eq_true.1 h e he
    rw [hc, Option.all_some] at h
    exact of_decide_eq_true (List.all_eq_true.1 h _ (hms _ (.head _)))

/-- Two calls on one key. -/
def pair : Contest Nothing UInt8 where
  config := .standard
  codec := ⟨fun a => some [a], List.head?⟩
  key := "k"
  operation
    | 0 => some (.done (.ok 7))
    | 1 => some (.done (.ok 8))
    | _ => none
  elsewhere i op h := by
    split at h
    · cases h
      trivial
    · cases h
      trivial
    · cases h
  decodes a bytes h := by
    cases h
    rfl

/-- The first of two calls claims the key, the second is refused, and the first stores its
result. -/
theorem exclusive_calls_exclude_pair :
    pair.Timely id (Crowd.start fresh pair.calls) (atOnce [0, 0, 0, 1, 1, 1, 0, 0, 1]) ∧
      pair.Excluded id
        ((Crowd.start fresh pair.calls).play (setting id) (atOnce [0, 0, 0, 1, 1, 1, 0, 0, 1])) :=
  have ht := timely_of_inTime (fun _ h => h) (by decide)
  ⟨ht, exclusive_calls_exclude pair id _ _ ht⟩

end Contest

end GuardedWrites

import GuardedWrites.Proofs.Effect.Shared
import GuardedWrites.Transaction.Runner

/-!
# Which work a result comes from

A program learns that a transaction was committed from the reply to its commit. `Sound` follows what
a program knows through its steps, and asks of each completed record that it stores: the record
tells of the work that it comes from, and if that work did not join a transaction, the program knows
that the transaction of the work was committed.

* `Origin` — the transaction that work ran in, and whether the work joined it;
* `Sound` — a program that stores no completed record too early, and what it knows when it is over;
* `Sound.bind` — one program after another;
* `run_sound` — a run of a runner knows of its commit, unless it joined the transaction around it.
-/

namespace GuardedWrites

open Shared

/-- Programs that know the transaction around them. -/
abbrev Action (W : Service) := ReaderT Scope (Program (service W))

/-- Which work computed a result: the store and the number of the transaction that it ran in, and
whether it joined that transaction. -/
structure Origin where
  store : Nat
  tx : Nat
  joined : Bool
deriving DecidableEq

/-- The transaction of an origin: the number of its database, and its own number there. -/
def Origin.transaction (home : Nat → Nat) (o : Origin) : Nat × Nat := (home o.store, o.tx)

namespace Provenance

variable {W : Service} (home : Nat → Nat) (origin : List UInt8 → Option Origin)

/-- A record that is completed tells of its work, and unless that joined a transaction, the
transaction of the work is known to be committed. -/
def Backed (known : List (Nat × Nat)) (r : IdempotencyRecord) : Prop :=
  r.isCompleted = true → ∃ o, origin r.result = some o ∧
  (o.joined = false → o.transaction home ∈ known)

/-- What a program may ask for, given what it knows. -/
def Allowed (known : List (Nat × Nat)) : Request W → Prop
  | .records (.put r _) => Backed home origin known r
  | .records (.putIfAbsent r _) => Backed home origin known r
  | _ => True

/-- What a program knows after a reply. -/
def learnt (known : List (Nat × Nat)) (r : Request W) (x : Reply W r) : List (Nat × Nat) :=
  (Deed.commit? home (.call (S := service W) r x)).toList ++ known

/-- A program that asks only for what it may, and when it is over knows enough for `Q`. -/
def Sound {α : Type} (Q : List (Nat × Nat) → α → Prop) :
    List (Nat × Nat) → Program (service W) α → Prop
  | known, .done a => Q known a
  | known, .call r k => Allowed home origin known r ∧ ∀ x, Sound Q (learnt home known r x) (k x)
  | known, .timer k => ∀ t, Sound Q known (k t)
  | known, .sleep _ k => Sound Q known k
  | _, .hang => True

/-- Sound, whatever is known at the end. -/
abbrev Safe {α : Type} (known : List (Nat × Nat)) (p : Program (service W) α) : Prop :=
  Sound home origin (fun _ _ => True) known p

/-- A request that stores no completed record. -/
def Harmless : Request W → Prop
  | .records (.put r _) => r.isCompleted = false
  | .records (.putIfAbsent r _) => r.isCompleted = false
  | _ => True

variable {home origin} {α β : Type} {known : List (Nat × Nat)} {p : Program (service W) α}
variable {Q Q' : List (Nat × Nat) → α → Prop}

theorem subset_learnt (known : List (Nat × Nat)) (r : Request W) (x : Reply W r) :
    known ⊆ learnt home known r x :=
  List.subset_append_right _ _

theorem allowed_of_harmless {r : Request W} (h : Harmless r) : Allowed home origin known r := by
  unfold Allowed
  split
  · exact fun hc => absurd hc (by simp [show IdempotencyRecord.isCompleted _ = false from h])
  · exact fun hc => absurd hc (by simp [show IdempotencyRecord.isCompleted _ = false from h])
  · trivial

/-- One program after another: the second starts from what the first has learnt. -/
theorem Sound.bind {f : α → Program (service W) β} {Q' : List (Nat × Nat) → β → Prop}
    (hp : Sound home origin Q known p)
    (hf : ∀ known' a, known ⊆ known' → Q known' a → Sound home origin Q' known' (f a)) :
    Sound home origin Q' known (p.bind f) := by
  induction p generalizing known with
  | done a => exact hf known a (List.Subset.refl _) hp
  | call r k ih =>
    refine ⟨hp.1, fun x => ih x (hp.2 x) fun known' a hk => hf known' a ?_⟩
    exact List.Subset.trans (subset_learnt known r x) hk
  | timer k ih => exact fun t => ih t (hp t) hf
  | sleep n k ih => exact ih hp hf
  | hang => trivial

theorem Sound.mono (hp : Sound home origin Q known p)
    (hQ : ∀ known' a, known ⊆ known' → Q known' a → Q' known' a) :
    Sound home origin Q' known p := by
  rw [← Program.bind_done p]
  exact hp.bind hQ

theorem Sound.safe (hp : Sound home origin Q known p) : Safe home origin known p :=
  hp.mono fun _ _ _ _ => trivial

theorem Sound.cutAt (hp : Safe home origin known p) (deadline : Nat) :
    Safe home origin known (p.cutAt deadline) := by
  induction p generalizing known with
  | done a => trivial
  | call r k ih => exact ⟨hp.1, fun x => ih x (hp.2 x)⟩
  | timer k ih => exact fun t => ih t (hp t)
  | sleep n k ih =>
    intro now
    dsimp only
    split
    · exact ih hp
    · trivial
  | hang => exact fun _ => trivial

theorem safe_of_harmless (hp : p.All Harmless) (known : List (Nat × Nat)) :
    Safe home origin known p := by
  induction p generalizing known with
  | done a => trivial
  | call r k ih => exact ⟨allowed_of_harmless hp.1, fun x => ih x (hp.2 x) _⟩
  | timer k ih => exact fun t => ih t (hp t) known
  | sleep n k ih => exact ih hp known
  | hang => trivial

/-- A step of a sound program: it lets time pass, or it asks for what it may and knows more. -/
theorem Sound.next? {o : Circumstances W} {s s' : Shared} {d : Deed (service W)}
    {p' : Program (service W) α} (hp : Sound home origin Q known p)
    (hn : p.next? (setting home) o s = some (d, p', s')) :
    d = .wait ∧ s' = s ∧ Sound home origin Q known p' ∨
      ∃ r, Allowed home origin known r ∧ d = .call r ((setting home).answer o r s).1 ∧
        s' = ((setting home).answer o r s).2 ∧
        Sound home origin Q (learnt home known r ((setting home).answer o r s).1) p' := by
  rcases Program.next?_cases hn with
    ⟨r, k, rfl, rfl, rfl, rfl⟩ | ⟨rfl, rfl, ⟨k, rfl, rfl⟩ | ⟨n, rfl⟩⟩
  · exact .inr ⟨r, hp.1, rfl, rfl, hp.2 _⟩
  · exact .inl ⟨rfl, rfl, hp _⟩
  · exact .inl ⟨rfl, rfl, hp⟩

/-! ### Runs -/

/-- A runner that asks its store and nothing else, with an observer that stores no completed
record. -/
structure Plain (R : Runner (Action W)) : Prop where
  asks : ∀ r scope, R.ask r scope = Program.ask (S := service W) (.database R.store r)
  observes : ∀ a b scope, (R.observe a b scope).All Harmless

/-- Whether a run would join the transaction around it. -/
def joins (R : Runner (Action W)) (scope : Scope) : Bool :=
  (scope.filter fun h => h.store == R.store).isSome

variable {ε : Type} {R : Runner (Action W)} {P : Handle → α → Prop}

/-- What is known when a run is over: a result that it returns is one of its work, in a transaction
of its store that is known to be committed. -/
def Committed (home : Nat → Nat) (R : Runner (Action W)) (P : Handle → α → Prop)
    (known : List (Nat × Nat)) (r : Except ε α) : Prop :=
  ∀ a, r = .ok a → ∃ h, P h a ∧ h.store = R.store ∧ (home h.store, h.tx) ∈ known

theorem committed_error {e : ε} : Committed home R P known (.error e) := by
  intro a h
  cases h

theorem Plain.ask_bind (hR : Plain R) {r : TransactionalStore.Request} {scope : Scope}
    {f : TransactionalStore.service.Reply r → Program (service W) α}
    (hf : ∀ x, Sound home origin Q (learnt home known (.database (W := W) R.store r) x) (f x)) :
    Sound home origin Q known ((R.ask r scope).bind f) := by
  rw [hR.asks]
  exact ⟨trivial, hf⟩

theorem Plain.observe_bind (hR : Plain R) {last next : Phase} {scope : Scope}
    {f : Unit → Program (service W) α}
    (hf : ∀ known', known ⊆ known' → Sound home origin Q known' (f ())) :
    Sound home origin Q known ((R.observe last next scope).bind f) :=
  Sound.bind (safe_of_harmless (hR.observes last next scope) known)
    fun known' _ hk _ => hf known' hk

theorem giveUp_sound (hR : Plain R) (e : ε) (scope : Scope) (known : List (Nat × Nat)) :
    Sound home origin (Committed home R P) known (R.giveUp e scope) :=
  hR.observe_bind fun _ _ => committed_error

variable [TransactionFailure ε] {work : Handle → Action W (Except ε α)}

theorem attempt_sound (hR : Plain R) (context : TransactionContext)
    (hw : ∀ h scope known,
      Sound home origin (fun _ r => ∀ a, r = .ok a → P h a) known (work h scope))
    (scope : Scope) (known : List (Nat × Nat)) :
    Sound home origin (Committed home R P) known (R.attempt context work scope) := by
  refine hR.ask_bind (r := .begin context) fun x => ?_
  cases x with
  | error e => exact committed_error
  | ok tx =>
    refine Sound.bind (hw ⟨R.store, tx, context⟩ (some ⟨R.store, tx, context⟩) _)
      fun known' r _ hr => ?_
    cases r with
    | error e => exact hR.ask_bind (r := .rollback tx) fun _ => committed_error
    | ok a =>
      refine hR.ask_bind (r := .commit tx) fun x => ?_
      cases x with
      | error e => exact committed_error
      | ok u =>
        -- the reply that lets the attempt succeed is the one from which the commit is learnt
        intro a' ha'
        cases ha'
        exact ⟨⟨R.store, tx, context⟩, hr a rfl, rfl, List.mem_cons_self⟩

theorem pause_safe (R : Runner (Action W)) (n : Nat) (scope : Scope) (known : List (Nat × Nat)) :
    Safe home origin known (R.pause n scope) := by
  unfold Runner.pause
  split <;> trivial

theorem round_sound (hR : Plain R) (spec : RunSpec) (n : Nat) (phase : Phase)
    {failed : ε → Action W (Except ε α)}
    (hw : ∀ h scope known,
      Sound home origin (fun _ r => ∀ a, r = .ok a → P h a) known (work h scope))
    (scope : Scope) (hf : ∀ e known, Sound home origin (Committed home R P) known (failed e scope))
    (known : List (Nat × Nat)) :
    Sound home origin (Committed home R P) known (R.round spec work n phase failed scope) := by
  refine hR.observe_bind fun known₁ _ => ?_
  refine Sound.bind (attempt_sound hR (spec.context n) hw scope known₁) fun known₂ r _ hr => ?_
  cases r with
  | error e => exact hf e known₂
  | ok a =>
    refine hR.observe_bind fun known₃ hk => ?_
    intro a' ha'
    cases ha'
    obtain ⟨h, hP, hs, hm⟩ := hr a rfl
    exact ⟨h, hP, hs, hk hm⟩

/-- Attempts until one is final, by induction on how many more are allowed. -/
theorem attempts_sound (hR : Plain R) (spec : RunSpec)
    (hw : ∀ h scope known,
      Sound home origin (fun _ r => ∀ a, r = .ok a → P h a) known (work h scope))
    (scope : Scope) (left n : Nat) (phase : Phase) (known : List (Nat × Nat)) :
    Sound home origin (Committed home R P) known (R.attempts spec work left n phase scope) := by
  induction left generalizing n phase known with
  | zero => exact round_sound hR spec n phase hw scope (fun e => giveUp_sound hR e scope) known
  | succ left ih =>
    refine round_sound hR spec n phase hw scope (fun e known₁ => ?_) known
    cases R.classOf e with
    | fatal => exact giveUp_sound hR e scope known₁
    | retryable =>
      refine hR.observe_bind fun known₂ _ => ?_
      exact Sound.bind (pause_safe R n scope known₂) fun known₃ _ _ _ =>
        ih (n + 1) .rolledBackRetry known₃

/-- A run inside a transaction on its store is its work in that transaction. -/
theorem run_of_enclosed (spec : RunSpec) {scope : Scope} {handle : Handle}
    (h : (scope.filter fun h => h.store == R.store) = some handle) :
    R.run spec work scope = work handle scope := by
  have henclosing : R.enclosing scope = .done (some handle) := congrArg Program.done h
  unfold Runner.run
  simp only [bind, ReaderT.bind]
  rw [henclosing]
  rfl

/-- Any other run makes attempts of its own. -/
theorem run_of_alone (spec : RunSpec) {scope : Scope}
    (h : (scope.filter fun h => h.store == R.store) = none) :
    R.run spec work scope = R.attempts spec work (spec.budget - 1) 1 .started scope := by
  have henclosing : R.enclosing scope = .done none := congrArg Program.done h
  unfold Runner.run
  simp only [bind, ReaderT.bind]
  rw [henclosing]
  rfl

/-- A run: a result that it returns is one of its work, and unless it joined the transaction around
it, the transaction of the work is known to be committed. -/
theorem run_sound (hR : Plain R) (spec : RunSpec)
    (hw : ∀ h scope known,
      Sound home origin (fun _ r => ∀ a, r = .ok a → P h a) known (work h scope))
    (scope : Scope) (known : List (Nat × Nat)) :
    Sound home origin (fun known' r => ∀ a, r = .ok a →
      ∃ h, P h a ∧ (joins R scope = false → (home h.store, h.tx) ∈ known')) known
      (R.run spec work scope) := by
  cases hs : scope.filter fun h : Handle => h.store == R.store with
  | none =>
    rw [run_of_alone spec hs]
    refine (attempts_sound hR spec hw scope _ _ _ known).mono fun known' r _ hr a ha => ?_
    obtain ⟨h, hP, -, hm⟩ := hr a ha
    exact ⟨h, hP, fun _ => hm⟩
  | some handle =>
    rw [run_of_enclosed spec hs]
    refine (hw handle scope known).mono fun known' r _ hr a ha => ⟨handle, hr a ha, fun hj => ?_⟩
    simp [joins, hs] at hj

end Provenance

end GuardedWrites

import GuardedWrites.Effect.Program

/-!
# Programs side by side

A `Crowd` is any number of programs on one state. A schedule, a list of moves, says which of them
takes its next indivisible step and under which circumstances (what the clock reads, say), and which
is dropped in the middle. Every step is noted in a log, the latest first.

* `Program.next?` — the next step of a program;
* `Crowd.play` — what a schedule makes of a crowd;
* `Crowd.play_invariant`, `Crowd.play_invariant_under` — what every step and every drop keep holds
  after every schedule.
-/

namespace GuardedWrites

/-- How calls and looks at the timer are answered, in a state and under circumstances that no
program controls. -/
structure Setting (S : Service) (σ ω : Type) where
  answer : ω → (r : S.Request) → σ → S.Reply r × σ
  timer : ω → Nat

/-- What a program does in one step: it makes a call and has its reply, or it lets time pass. -/
inductive Deed (S : Service) where
  | call (r : S.Request) (x : S.Reply r)
  | wait

namespace Program

variable {S : Service} {σ ω α β : Type}

/-- Whether a program has ended. -/
def isDone : Program S α → Bool
  | .done _ => true
  | _ => false

/-- The value that a program has returned, if it has ended with one. -/
def value? {ε : Type} : Program S (Except ε α) → Option α
  | .done (.ok a) => some a
  | _ => none

theorem value?_eq_some {ε : Type} {p : Program S (Except ε α)} {a : α} (h : p.value? = some a) :
    p = .done (.ok a) := by
  cases p with
  | done r => cases r <;> simp_all [value?]
  | _ => cases h

/-- The next step of a program: the deed, what is left of the program, and the state. There is none
if the program has ended or waits for ever. -/
def next? (E : Setting S σ ω) (o : ω) : Program S α → σ → Option (Deed S × Program S α × σ)
  | .done _, _ => none
  | .call r k, s => some (.call r (E.answer o r s).1, k (E.answer o r s).1, (E.answer o r s).2)
  | .timer k, s => some (.wait, k (E.timer o), s)
  | .sleep _ k, s => some (.wait, k, s)
  | .hang, _ => none

/-- Every call that a program may make has a property. -/
def All (P : S.Request → Prop) : Program S α → Prop
  | .done _ => True
  | .call r k => P r ∧ ∀ x, (k x).All P
  | .timer k => ∀ t, (k t).All P
  | .sleep _ k => k.All P
  | .hang => True

variable {E : Setting S σ ω} {o : ω} {s s' : σ} {d : Deed S} {P : S.Request → Prop}

theorem bind_of_isDone {p : Program S α} (h : p.isDone = true) (f : α → Program S β) :
    ∃ a, p = .done a ∧ p.bind f = f a := by
  cases p with
  | done a => exact ⟨a, rfl, rfl⟩
  | call r k => simp [isDone] at h
  | timer k => simp [isDone] at h
  | sleep d k => simp [isDone] at h
  | hang => simp [isDone] at h

theorem next?_call {r : S.Request} {k : S.Reply r → Program S α} {p : Program S α}
    (h : (Program.call r k).next? E o s = some (d, p, s')) :
    d = .call r (E.answer o r s).1 ∧ p = k (E.answer o r s).1 ∧ s' = (E.answer o r s).2 := by
  simp only [next?, Option.some.injEq, Prod.mk.injEq] at h
  exact ⟨h.1.symm, h.2.1.symm, h.2.2.symm⟩

/-- What a step can be: the call that the program begins with, a look at the timer, or a wait. -/
theorem next?_cases {p p' : Program S α} (h : p.next? E o s = some (d, p', s')) :
    (∃ r k, p = .call r k ∧ d = .call r (E.answer o r s).1 ∧ p' = k (E.answer o r s).1 ∧
      s' = (E.answer o r s).2) ∨
    d = .wait ∧ s' = s ∧ ((∃ k, p = .timer k ∧ p' = k (E.timer o)) ∨ ∃ n, p = .sleep n p') := by
  cases p with
  | done a => simp [next?] at h
  | call r k => exact .inl ⟨r, k, rfl, next?_call h⟩
  | timer k =>
    cases h
    exact .inr ⟨rfl, rfl, .inl ⟨k, rfl, rfl⟩⟩
  | sleep n k =>
    cases h
    exact .inr ⟨rfl, rfl, .inr ⟨n, rfl⟩⟩
  | hang => simp [next?] at h

/-- The call that a step makes is answered as the setting says. -/
theorem answer_of_next? {r : S.Request} {x : S.Reply r} {p p' : Program S α}
    (h : p.next? E o s = some (.call r x, p', s')) :
    x = (E.answer o r s).1 ∧ s' = (E.answer o r s).2 := by
  rcases next?_cases h with ⟨r', k, rfl, hd, rfl, rfl⟩ | ⟨hd, -⟩
  · cases hd
    exact ⟨rfl, rfl⟩
  · cases hd

theorem isDone_of_next? {p p' : Program S α} (h : p.next? E o s = some (d, p', s')) :
    p.isDone = false := by
  cases p with
  | done a => simp [next?] at h
  | _ => rfl

theorem isDone_bind {p : Program S α} (h : p.isDone = false) (f : α → Program S β) :
    (p.bind f).isDone = false := by
  cases p with
  | done a => simp [isDone] at h
  | _ => rfl

/-- If the first of two programs has not ended and both together begin with a call, the first begins
with it. -/
theorem eq_call_of_bind_eq {p : Program S α} (h : p.isDone = false) {f : α → Program S β}
    {r : S.Request} {k : S.Reply r → Program S β} (hb : p.bind f = .call r k) :
    ∃ k', p = .call r k' ∧ ∀ x, (k' x).bind f = k x := by
  cases p with
  | done a => simp [isDone] at h
  | call r' k' =>
    cases hb
    exact ⟨k', rfl, fun x => rfl⟩
  | timer k' => simp [Program.bind] at hb
  | sleep n k' => simp [Program.bind] at hb
  | hang => simp [Program.bind] at hb

/-- As long as the first of two programs has not ended, the step is the step of the first. -/
theorem next?_bind {p : Program S α} (h : p.isDone = false) (f : α → Program S β) :
    (p.bind f).next? E o s = (p.next? E o s).map fun x => (x.1, x.2.1.bind f, x.2.2) := by
  cases p with
  | done a => simp [isDone] at h
  | call r k => rfl
  | timer k => rfl
  | sleep d k => rfl
  | hang => rfl

theorem All.bind {p : Program S α} {f : α → Program S β} (hp : p.All P) (hf : ∀ a, (f a).All P) :
    (p.bind f).All P := by
  induction p with
  | done a => exact hf a
  | call r k ih => exact ⟨hp.1, fun x => ih x (hp.2 x)⟩
  | timer k ih => exact fun t => ih t (hp t)
  | sleep d k ih => exact ih hp
  | hang => trivial

theorem All.cutAt {p : Program S α} (hp : p.All P) (deadline : Nat) : (p.cutAt deadline).All P := by
  induction p with
  | done a => trivial
  | call r k ih => exact ⟨hp.1, fun x => ih x (hp.2 x)⟩
  | timer k ih => exact fun t => ih t (hp t)
  | sleep d k ih =>
    intro now
    dsimp only
    split
    · exact ih hp
    · trivial
  | hang => exact fun _ => trivial

/-- A step of a program whose calls all have a property: the call that it makes has it, and so have
the calls of what is left. -/
theorem All.next? {p p' : Program S α} (hp : p.All P) (h : p.next? E o s = some (d, p', s')) :
    p'.All P ∧ (d = .wait ∧ s' = s ∨
      ∃ r, P r ∧ d = .call r (E.answer o r s).1 ∧ s' = (E.answer o r s).2) := by
  rcases next?_cases h with ⟨r, k, rfl, rfl, rfl, rfl⟩ | ⟨rfl, rfl, ⟨k, rfl, rfl⟩ | ⟨n, rfl⟩⟩
  · exact ⟨hp.2 _, .inr ⟨r, hp.1, rfl, rfl⟩⟩
  · exact ⟨hp _, .inl ⟨rfl, rfl⟩⟩
  · exact ⟨hp, .inl ⟨rfl, rfl⟩⟩

end Program

/-- A step in a log: which program took it, under which circumstances, and what it did. -/
structure Step (S : Service) (ω : Type) where
  who : Nat
  circumstances : ω
  deed : Deed S

/-- Programs by number, those that were dropped or never were being none, the state that they share,
and the log of their steps. -/
structure Crowd (S : Service) (σ ω α : Type) where
  state : σ
  tasks : Nat → Option (Program S α)
  log : List (Step S ω)

/-- One move of a schedule: a program takes its next step, or it is dropped. -/
inductive Move (ω : Type) where
  | step (who : Nat) (o : ω)
  | drop (who : Nat)

namespace Crowd

variable {S : Service} {σ ω α : Type}

/-- A crowd in which nothing has happened. -/
def start (s : σ) (tasks : Nat → Option (Program S α)) : Crowd S σ ω α := ⟨s, tasks, []⟩

/-- The crowd after a step of one program. -/
def advance (c : Crowd S σ ω α) (who : Nat) (o : ω) (d : Deed S) (p : Program S α) (s : σ) :
    Crowd S σ ω α :=
  ⟨s, fun i => if i = who then some p else c.tasks i, ⟨who, o, d⟩ :: c.log⟩

/-- The crowd without one program. -/
def forget (c : Crowd S σ ω α) (who : Nat) : Crowd S σ ω α :=
  { c with tasks := fun i => if i = who then none else c.tasks i }

/-- One move. A program that has ended, waits for ever or is not there does nothing. -/
def move (E : Setting S σ ω) (c : Crowd S σ ω α) : Move ω → Crowd S σ ω α
  | .step who o =>
    match (c.tasks who).bind fun p => p.next? E o c.state with
    | some (d, p, s) => c.advance who o d p s
    | none => c
  | .drop who => c.forget who

/-- The crowd after a schedule. -/
def play (E : Setting S σ ω) (c : Crowd S σ ω α) (ms : List (Move ω)) : Crowd S σ ω α :=
  ms.foldl (move E) c

variable {E : Setting S σ ω}

theorem tasks_of_value? {ε : Type} {c : Crowd S σ ω (Except ε α)} {i : Nat} {a : α}
    (h : (c.tasks i).bind Program.value? = some a) : c.tasks i = some (.done (.ok a)) := by
  obtain ⟨p, hp, hvalue⟩ := Option.bind_eq_some_iff.1 h
  rw [hp, Program.value?_eq_some hvalue]

theorem play_cons (c : Crowd S σ ω α) (mv : Move ω) (ms : List (Move ω)) :
    c.play E (mv :: ms) = (c.move E mv).play E ms := rfl

theorem play_append (c : Crowd S σ ω α) (ms ms' : List (Move ω)) :
    c.play E (ms ++ ms') = (c.play E ms).play E ms' := List.foldl_append

/-- The step of a program that has ended, waits for ever or is not there is none. -/
theorem move_step_cases (c : Crowd S σ ω α) (who : Nat) (o : ω) :
    c.move E (.step who o) = c ∨ ∃ p d p' s', c.tasks who = some p ∧
    p.next? E o c.state = some (d, p', s') ∧
      c.move E (.step who o) = c.advance who o d p' s' := by
  cases ht : c.tasks who with
  | none => exact .inl (by simp [move, ht])
  | some p =>
    cases hn : p.next? E o c.state with
    | none => exact .inl (by simp [move, ht, hn])
    | some x => exact .inr ⟨p, x.1, x.2.1, x.2.2, rfl, hn, by simp [move, ht, hn]⟩

/-- What a move can do: nothing, drop a program, or let one that is there take its next step. -/
theorem move_cases (c : Crowd S σ ω α) (mv : Move ω) :
    c.move E mv = c ∨ (∃ who, c.move E mv = c.forget who) ∨
      ∃ who o p d p' s', mv = .step who o ∧ c.tasks who = some p ∧
        p.next? E o c.state = some (d, p', s') ∧
        c.move E mv = c.advance who o d p' s' := by
  cases mv with
  | drop who => exact .inr (.inl ⟨who, rfl⟩)
  | step who o =>
    rcases c.move_step_cases (E := E) who o with h | ⟨p, d, p', s', ht, hn, h⟩
    · exact .inl h
    · exact .inr (.inr ⟨who, o, p, d, p', s', rfl, ht, hn, h⟩)

theorem move_step {c : Crowd S σ ω α} {who : Nat} {o : ω} {p p' : Program S α} {d : Deed S} {s' : σ}
    (ht : c.tasks who = some p) (hn : p.next? E o c.state = some (d, p', s')) :
    c.move E (.step who o) = c.advance who o d p' s' := by
  simp [move, ht, hn]

/-- Every move of a schedule has a property at the crowd that it finds. -/
def Throughout (E : Setting S σ ω) (P : Crowd S σ ω α → Move ω → Prop) :
    Crowd S σ ω α → List (Move ω) → Prop
  | _, [] => True
  | c, mv :: ms => P c mv ∧ Throughout E P (c.move E mv) ms

theorem throughout_of_mem {P : Move ω → Prop} {ms : List (Move ω)} (h : ∀ mv ∈ ms, P mv)
    (c : Crowd S σ ω α) :
    Throughout E (fun _ mv => P mv) c ms := by
  induction ms generalizing c with
  | nil => trivial
  | cons mv ms ih => exact ⟨h mv (.head _), ih (fun mv hmv => h mv (.tail _ hmv)) _⟩

/-- What every step and every drop keep under a condition holds after a schedule whose moves meet
the condition. -/
theorem play_invariant_under {I : Crowd S σ ω α → Prop} {P : Crowd S σ ω α → Move ω → Prop}
    (hstep : ∀ c who o p d p' s', I c → P c (.step who o) → c.tasks who = some p →
      p.next? E o c.state = some (d, p', s') → I (c.advance who o d p' s'))
    (hdrop : ∀ c who, I c → I (c.forget who)) {c : Crowd S σ ω α} (hc : I c) {ms : List (Move ω)}
    (hP : Throughout E P c ms) : I (c.play E ms) := by
  induction ms generalizing c with
  | nil => exact hc
  | cons mv ms ih =>
    refine ih ?_ hP.2
    rcases c.move_cases (E := E) mv with h | ⟨who, h⟩ | ⟨who, o, p, d, p', s', rfl, ht, hn, h⟩
    · rwa [h]
    · rw [h]
      exact hdrop c who hc
    · rw [h]
      exact hstep c who o p d p' s' hc hP.1 ht hn

/-- What every step and every drop keep holds after every schedule. -/
theorem play_invariant {I : Crowd S σ ω α → Prop}
    (hstep : ∀ c who o p d p' s', I c → c.tasks who = some p →
      p.next? E o c.state = some (d, p', s') → I (c.advance who o d p' s'))
    (hdrop : ∀ c who, I c → I (c.forget who)) {c : Crowd S σ ω α} (hc : I c) (ms : List (Move ω)) :
    I (c.play E ms) :=
  play_invariant_under (fun c who o p d p' s' hc _ => hstep c who o p d p' s' hc) hdrop hc
    (throughout_of_mem (fun _ _ => trivial) c)

/-- A schedule adds steps to the log and takes none away. -/
theorem log_play (c : Crowd S σ ω α) (ms : List (Move ω)) :
    ∃ later, (c.play E ms).log = later ++ c.log := by
  induction ms generalizing c with
  | nil => exact ⟨[], rfl⟩
  | cons mv ms ih =>
    obtain ⟨later, h⟩ := ih (c.move E mv)
    rcases c.move_cases (E := E) mv with hm | ⟨who, hm⟩ | ⟨who, o, p, d, p', s', -, -, -, hm⟩
    · exact ⟨later, by rw [play_cons, h, hm]⟩
    · exact ⟨later, by rw [play_cons, h, hm]; rfl⟩
    · exact ⟨later ++ [⟨who, o, d⟩], by rw [play_cons, h, hm]; simp [advance]⟩

theorem mem_log_play {e : Step S ω} {c : Crowd S σ ω α} (ms : List (Move ω)) (h : e ∈ c.log) :
    e ∈ (c.play E ms).log := by
  obtain ⟨later, hl⟩ := c.log_play (E := E) ms
  rw [hl]
  exact List.mem_append_right later h

@[simp] theorem tasks_advance_self (c : Crowd S σ ω α) (who : Nat) (o : ω) (d : Deed S)
    (p : Program S α) (s : σ) :
    (c.advance who o d p s).tasks who = some p := by
  simp [advance]

theorem tasks_advance_of_ne (c : Crowd S σ ω α) {who i : Nat} (h : i ≠ who) (o : ω) (d : Deed S)
    (p : Program S α) (s : σ) : (c.advance who o d p s).tasks i = c.tasks i := by
  simp [advance, h]

/-- A program after a step of one of them: what is left of that one, or one that has not moved. -/
theorem tasks_advance_cases {c : Crowd S σ ω α} {who i : Nat} {o : ω} {d : Deed S}
    {p q : Program S α} {s : σ} (h : (c.advance who o d p s).tasks i = some q) :
    i = who ∧ q = p ∨ i ≠ who ∧ c.tasks i = some q := by
  by_cases hi : i = who
  · subst hi
    rw [c.tasks_advance_self, Option.some.injEq] at h
    exact .inl ⟨rfl, h.symm⟩
  · rw [c.tasks_advance_of_ne hi] at h
    exact .inr ⟨hi, h⟩

theorem tasks_forget (c : Crowd S σ ω α) (who i : Nat) {p : Program S α}
    (h : (c.forget who).tasks i = some p) : c.tasks i = some p := by
  unfold forget at h
  dsimp only at h
  split at h
  · simp at h
  · exact h

end Crowd

end GuardedWrites

import GuardedWrites.Proofs.Effect.Schedule

/-!
# Programs that come to their end

A program that never waits for ever comes to its end, whoever answers it. What it ends with, and in
which state, is told along its text.

* `Program.Ends`, `Program.Halts` — a program that comes to its end: what it may ask for, and what
  it may end with;
* `Program.Yields` — what it ends with when it is run alone from a state, with one rule for each way
  to make a program;
* `Program.Yields.of_ends` — what every step keeps, a program that comes to its end keeps.
-/

namespace GuardedWrites

namespace Program

variable {S : Service} {σ α β : Type}

/-- A program that comes to its end, whatever it is answered. Every call that it may make has one
property, and every value that it may end with another one. -/
def Ends (P : S.Request → Prop) (Q : α → Prop) : Program S α → Prop
  | .done a => Q a
  | .call r k => P r ∧ ∀ x, (k x).Ends P Q
  | .timer k => ∀ t, (k t).Ends P Q
  | .sleep _ k => k.Ends P Q
  | .hang => False

/-- A program that comes to its end, whatever it is answered. -/
abbrev Halts (p : Program S α) : Prop := p.Ends (fun _ => True) fun _ => True

/-- Run alone from a state, a program comes to its end with a value and in a state that belong
together. -/
def Yields (answer : (r : S.Request) → σ → S.Reply r × σ) (p : Program S α) (s : σ)
    (Q : α → σ → Prop) : Prop :=
  ∀ n, ∃ a s' n', p.run answer s n = (some a, s', n') ∧ Q a s'

section Ends

variable {P : S.Request → Prop} {Q : α → Prop} {p : Program S α}

theorem Ends.bind {f : α → Program S β} {Q' : β → Prop} (hp : p.Ends P Q)
    (hf : ∀ a, Q a → (f a).Ends P Q') :
    (p.bind f).Ends P Q' := by
  induction p with
  | done a => exact hf a hp
  | call r k ih => exact ⟨hp.1, fun x => ih x (hp.2 x)⟩
  | timer k ih => exact fun t => ih t (hp t)
  | sleep n k ih => exact ih hp
  | hang => exact hp.elim

theorem Ends.all (hp : p.Ends P Q) {P' : S.Request → Prop} (hP : ∀ r, P r → P' r) : p.All P' := by
  induction p with
  | done a => trivial
  | call r k ih => exact ⟨hP r hp.1, fun x => ih x (hp.2 x)⟩
  | timer k ih => exact fun t => ih t (hp t)
  | sleep n k ih => exact ih hp
  | hang => trivial

end Ends

namespace Yields

variable {answer : (r : S.Request) → σ → S.Reply r × σ} {p : Program S α} {s : σ} {Q : α → σ → Prop}

theorem done {a : α} (h : Q a s) : (Program.done a).Yields answer s Q := fun n => ⟨a, s, n, rfl, h⟩

theorem call {r : S.Request} {k : S.Reply r → Program S α}
    (h : (k (answer r s).1).Yields answer (answer r s).2 Q) :
    (Program.call r k).Yields answer s Q := fun n => h n

theorem bind {f : α → Program S β} {Q' : β → σ → Prop} (hp : p.Yields answer s Q)
    (hf : ∀ a s', Q a s' → (f a).Yields answer s' Q') : (p.bind f).Yields answer s Q' := by
  intro n
  obtain ⟨a, s', n', hrun, hQ⟩ := hp n
  obtain ⟨b, s'', n'', hrun', hQ'⟩ := hf a s' hQ n'
  refine ⟨b, s'', n'', ?_, hQ'⟩
  rw [run_bind, hrun]
  exact hrun'

theorem mono {Q' : α → σ → Prop} (hp : p.Yields answer s Q) (hQ : ∀ a s', Q a s' → Q' a s') :
    p.Yields answer s Q' := by
  intro n
  obtain ⟨a, s', n', hrun, h⟩ := hp n
  exact ⟨a, s', n', hrun, hQ a s' h⟩

/-- What every step that a program may take keeps holds when it has come to its end. -/
theorem of_ends {P : S.Request → Prop} {R : α → Prop} {I : σ → Prop} (hp : p.Ends P R)
    (hstep : ∀ r s, P r → I s → I (answer r s).2) (hs : I s) :
    p.Yields answer s fun a s' => R a ∧ I s' := by
  induction p generalizing s with
  | done a => exact done ⟨hp, hs⟩
  | call r k ih => exact call (ih _ (hp.2 _) (hstep r s hp.1 hs))
  | timer k ih => exact fun n => ih n (hp n) hs n
  | sleep d k ih => exact fun n => ih hp hs (n + d)
  | hang => exact hp.elim

/-- A program that asks nothing and comes to its end changes nothing for the one after it. -/
theorem after_silent {f : α → Program S β} {Q' : β → σ → Prop}
    (hp : p.Ends (fun _ => False) fun _ => True) (hf : ∀ a, (f a).Yields answer s Q') :
    (p.bind f).Yields answer s Q' := by
  refine (of_ends (I := (· = s)) hp (fun _ _ hr _ => hr.elim) rfl).bind ?_
  rintro a s' ⟨-, rfl⟩
  exact hf a

end Yields

end Program

end GuardedWrites

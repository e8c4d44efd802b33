import GuardedWrites.Proofs.Effect.Monitor

/-!
# What a program did, with its sleeps

The deeds of a program do not tell how long it slept, nor what it read off the timer. Its acts do,
and so they are the whole path through its tree, from the beginning to the end.

* `Act` — what a program does in one step, with all that is known of it;
* `Program.Acts` — a program comes to its end by way of some acts;
* `Program.Acts.of_bind` — the acts of two programs in a row are those of the first and then those
  of the second;
* `Program.Acts.takes` — acts without times are deeds.
-/

namespace GuardedWrites

/-- What a program does in one step: it makes a call and has its reply, it reads the timer, or it
sleeps. -/
inductive Act (S : Service) where
  | call (r : S.Request) (x : S.Reply r)
  | timer (now : Nat)
  | sleep (ticks : Nat)

/-- An act without its times. -/
def Act.deed {S : Service} : Act S → Deed S
  | .call r x => .call r x
  | .timer _ | .sleep _ => .wait

namespace Program

variable {S : Service} {α β : Type}

/-- A program comes to its end by way of some acts, and returns a value. -/
inductive Acts : Program S α → List (Act S) → α → Prop
  | done (a : α) : Acts (.done a) [] a
  | call {r : S.Request} {k : S.Reply r → Program S α} {as : List (Act S)} {a : α} (x : S.Reply r)
      (h : Acts (k x) as a) : Acts (.call r k) (.call r x :: as) a
  | timer {k : Nat → Program S α} {as : List (Act S)} {a : α} (now : Nat) (h : Acts (k now) as a) :
      Acts (.timer k) (.timer now :: as) a
  | sleep {n : Nat} {k : Program S α} {as : List (Act S)} {a : α} (h : Acts k as a) :
      Acts (.sleep n k) (.sleep n :: as) a

namespace Acts

variable {p : Program S α} {as : List (Act S)} {a b : α}

theorem of_done (h : Acts (.done a : Program S α) as b) : as = [] ∧ b = a := by
  cases h
  exact ⟨rfl, rfl⟩

theorem of_sleep {n : Nat} {k : Program S α} (h : Acts (.sleep n k) as a) :
    ∃ bs, as = .sleep n :: bs ∧ Acts k bs a := by
  cases h with
  | sleep h => exact ⟨_, rfl, h⟩

/-- The acts of two programs in a row. -/
theorem of_bind {f : α → Program S β} {b : β} (h : Acts (p.bind f) as b) :
    ∃ bs a cs, as = bs ++ cs ∧ Acts p bs a ∧ Acts (f a) cs b := by
  induction p generalizing as with
  | done a => exact ⟨[], a, as, rfl, .done a, h⟩
  | call r k ih =>
    cases h with
    | call x h =>
      obtain ⟨bs, a, cs, rfl, hp, hf⟩ := ih x h
      exact ⟨_ :: bs, a, cs, rfl, .call x hp, hf⟩
  | timer k ih =>
    cases h with
    | timer now h =>
      obtain ⟨bs, a, cs, rfl, hp, hf⟩ := ih now h
      exact ⟨_ :: bs, a, cs, rfl, .timer now hp, hf⟩
  | sleep n k ih =>
    cases h with
    | sleep h =>
      obtain ⟨bs, a, cs, rfl, hp, hf⟩ := ih h
      exact ⟨_ :: bs, a, cs, rfl, .sleep hp, hf⟩
  | hang => cases h

/-- Acts are a path through the program. -/
theorem takes (h : Acts p as a) : p.Takes (as.map Act.deed) (.done a) := by
  induction h with
  | done a => exact .refl _
  | call x _ ih => exact .call ih
  | timer now _ ih => exact .timer ih
  | sleep _ ih => exact .sleep ih

end Acts

end Program

end GuardedWrites

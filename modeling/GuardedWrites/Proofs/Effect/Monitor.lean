import GuardedWrites.Proofs.Effect.Schedule

/-!
# What a program did, and what it may do

The deeds of one program in a crowd are a path through its tree, whatever the other programs do in
between. A monitor is a small machine that reads the deeds of a program and says which ones are
allowed next. A program obeys a monitor if every path through its tree is allowed, whatever is
replied to its calls.

* `Program.Takes` — a program takes some steps; `Takes.bind_cases` cuts the steps of two programs in
  a row;
* `Crowd.deeds` — the deeds of one program in a log; `Crowd.takes_play` says that they are a path;
* `Program.Obeys` — every path is allowed, and what holds at its end; `Obeys.bind` puts two programs
  in a row;
* `Obeys.takes` — the deeds of a program that obeys are accepted.
-/

namespace GuardedWrites

namespace Program

variable {S : Service} {σ ω α β : Type}

/-- A program takes some steps, with some replies: its deeds, and what is left of it. -/
inductive Takes : Program S α → List (Deed S) → Program S α → Prop
  | refl (p : Program S α) : Takes p [] p
  | call {r : S.Request} {k : S.Reply r → Program S α} {x : S.Reply r} {ds : List (Deed S)}
      {q : Program S α} (h : Takes (k x) ds q) : Takes (.call r k) (.call r x :: ds) q
  | timer {k : Nat → Program S α} {t : Nat} {ds : List (Deed S)} {q : Program S α}
      (h : Takes (k t) ds q) : Takes (.timer k) (.wait :: ds) q
  | sleep {n : Nat} {k : Program S α} {ds : List (Deed S)} {q : Program S α} (h : Takes k ds q) :
      Takes (.sleep n k) (.wait :: ds) q

namespace Takes

variable {p q : Program S α} {ds : List (Deed S)}

theorem of_done {a : α} (h : Takes (.done a) ds q) : ds = [] ∧ q = .done a := by
  cases h
  exact ⟨rfl, rfl⟩

theorem of_call {r : S.Request} {k : S.Reply r → Program S α} {a : α}
    (h : Takes (.call r k) ds (.done a)) :
    ∃ x ds', ds = .call r x :: ds' ∧ Takes (k x) ds' (.done a) := by
  cases h with
  | @call _ _ x ds' _ h => exact ⟨x, ds', rfl, h⟩

/-- One step more at the end. -/
theorem concat {E : Setting S σ ω} {o : ω} {s s' : σ} {d : Deed S} {q' : Program S α}
    (h : Takes p ds q) (hn : q.next? E o s = some (d, q', s')) :
    Takes p (ds ++ [d]) q' := by
  induction h with
  | refl p =>
    rcases next?_cases hn with ⟨r, k, rfl, rfl, rfl, -⟩ | ⟨rfl, -, ⟨k, rfl, rfl⟩ | ⟨n, rfl⟩⟩
    · exact .call (.refl _)
    · exact .timer (.refl _)
    · exact .sleep (.refl _)
  | call _ ih => exact .call (ih hn)
  | timer _ ih => exact .timer (ih hn)
  | sleep _ ih => exact .sleep (ih hn)

/-- The steps of two programs in a row: the first is still at it, or it has ended and the second is
at it. -/
theorem bind_cases {f : α → Program S β} {q : Program S β} (h : Takes (p.bind f) ds q) :
    (∃ q', Takes p ds q' ∧ q'.isDone = false ∧ q = q'.bind f) ∨
      ∃ ds₁ a ds₂, ds = ds₁ ++ ds₂ ∧ Takes p ds₁ (.done a) ∧ Takes (f a) ds₂ q := by
  induction p generalizing ds with
  | done a => exact .inr ⟨[], a, ds, rfl, .refl _, h⟩
  | call r k ih =>
    cases h with
    | refl => exact .inl ⟨_, .refl _, rfl, rfl⟩
    | call h =>
      rcases ih _ h with ⟨q', h', hq', rfl⟩ | ⟨ds₁, a, ds₂, rfl, h₁, h₂⟩
      · exact .inl ⟨q', .call h', hq', rfl⟩
      · exact .inr ⟨_ :: ds₁, a, ds₂, rfl, .call h₁, h₂⟩
  | timer k ih =>
    cases h with
    | refl => exact .inl ⟨_, .refl _, rfl, rfl⟩
    | timer h =>
      rcases ih _ h with ⟨q', h', hq', rfl⟩ | ⟨ds₁, a, ds₂, rfl, h₁, h₂⟩
      · exact .inl ⟨q', .timer h', hq', rfl⟩
      · exact .inr ⟨_ :: ds₁, a, ds₂, rfl, .timer h₁, h₂⟩
  | sleep n k ih =>
    cases h with
    | refl => exact .inl ⟨_, .refl _, rfl, rfl⟩
    | sleep h =>
      rcases ih h with ⟨q', h', hq', rfl⟩ | ⟨ds₁, a, ds₂, rfl, h₁, h₂⟩
      · exact .inl ⟨q', .sleep h', hq', rfl⟩
      · exact .inr ⟨_ :: ds₁, a, ds₂, rfl, .sleep h₁, h₂⟩
  | hang =>
    cases h with
    | refl => exact .inl ⟨_, .refl _, rfl, rfl⟩

/-- The steps of two programs in a row are those of the first and then those of the second. -/
theorem of_bind {p : Program S α} {f : α → Program S β} {b : β}
    (h : Takes (p.bind f) ds (.done b)) :
    ∃ ds₁ a ds₂, ds = ds₁ ++ ds₂ ∧ Takes p ds₁ (.done a) ∧ Takes (f a) ds₂ (.done b) := by
  rcases h.bind_cases with ⟨q', -, hq', hdone⟩ | h
  · have hover := isDone_bind hq' f
    rw [← hdone] at hover
    cases hover
  · exact h

end Takes

/-! ### Monitors -/

/-- Reads the deeds of a program one by one: from which state it goes to which at a deed. A deed at
which it can go nowhere is not allowed. -/
abbrev Monitor (S : Service) (μ : Type) : Type := μ → Deed S → μ → Prop

variable {μ : Type} {M : Monitor S μ} {Q : μ → α → Prop} {m m' : μ}

/-- Every path through a program is allowed, and if it ends, the monitor and the result are as they
should be. -/
def Obeys (M : Monitor S μ) (Q : μ → α → Prop) : μ → Program S α → Prop
  | m, .done a => Q m a
  | m, .call r k => ∀ x, ∃ m', M m (.call r x) m' ∧ Obeys M Q m' (k x)
  | m, .timer k => ∃ m', M m .wait m' ∧ ∀ t, Obeys M Q m' (k t)
  | m, .sleep _ k => ∃ m', M m .wait m' ∧ Obeys M Q m' k
  | _, .hang => True

/-- A monitor reads some deeds. -/
def Accepts (M : Monitor S μ) : μ → List (Deed S) → μ → Prop
  | m, [], m' => m' = m
  | m, d :: ds, m' => ∃ m₁, M m d m₁ ∧ Accepts M m₁ ds m'

theorem accepts_append {ds es : List (Deed S)} :
    Accepts M m (ds ++ es) m' ↔ ∃ m₁, Accepts M m ds m₁ ∧ Accepts M m₁ es m' := by
  induction ds generalizing m with
  | nil => simp [Accepts]
  | cons d ds ih =>
    simp only [List.cons_append, Accepts, ih]
    constructor
    · rintro ⟨m₁, h₁, m₂, h₂, h₃⟩
      exact ⟨m₂, ⟨m₁, h₁, h₂⟩, h₃⟩
    · rintro ⟨m₂, ⟨m₁, h₁, h₂⟩, h₃⟩
      exact ⟨m₁, h₁, m₂, h₂, h₃⟩

namespace Obeys

variable {p : Program S α}

/-- One program after another: the second starts where the first leaves the monitor. -/
theorem bind {f : α → Program S β} {Q' : μ → β → Prop} (hp : Obeys M Q m p)
    (hf : ∀ m a, Q m a → Obeys M Q' m (f a)) : Obeys M Q' m (p.bind f) := by
  induction p generalizing m with
  | done a => exact hf m a hp
  | call r k ih =>
    intro x
    obtain ⟨m', hm', hk⟩ := hp x
    exact ⟨m', hm', ih x hk⟩
  | timer k ih =>
    obtain ⟨m', hm', hk⟩ := hp
    exact ⟨m', hm', fun t => ih t (hk t)⟩
  | sleep n k ih =>
    obtain ⟨m', hm', hk⟩ := hp
    exact ⟨m', hm', ih hk⟩
  | hang => trivial

theorem mono {Q' : μ → α → Prop} (hp : Obeys M Q m p) (hQ : ∀ m a, Q m a → Q' m a) :
    Obeys M Q' m p := by
  rw [← bind_done p]
  exact hp.bind hQ

/-- Another monitor, in step with the first: what the first allows it allows too. -/
theorem simulate {ν : Type} {M' : Monitor S ν} {Q' : ν → α → Prop} {T : μ → ν → Prop} {n : ν}
    (hstep : ∀ m n d m', T m n → M m d m' → ∃ n', M' n d n' ∧ T m' n')
    (hQ : ∀ m n a, T m n → Q m a → Q' n a) (hp : Obeys M Q m p) (hT : T m n) : Obeys M' Q' n p := by
  induction p generalizing m n with
  | done a => exact hQ m n a hT hp
  | call r k ih =>
    intro x
    obtain ⟨m', hm', hk⟩ := hp x
    obtain ⟨n', hn', hT'⟩ := hstep m n _ m' hT hm'
    exact ⟨n', hn', ih x hk hT'⟩
  | timer k ih =>
    obtain ⟨m', hm', hk⟩ := hp
    obtain ⟨n', hn', hT'⟩ := hstep m n _ m' hT hm'
    exact ⟨n', hn', fun t => ih t (hk t) hT'⟩
  | sleep j k ih =>
    obtain ⟨m', hm', hk⟩ := hp
    obtain ⟨n', hn', hT'⟩ := hstep m n _ m' hT hm'
    exact ⟨n', hn', ih hk hT'⟩
  | hang => trivial

/-- A program all of whose calls leave the monitor where it is. -/
theorem of_all {P : S.Request → Prop} (hp : p.All P) (hcall : ∀ r x, P r → M m (.call r x) m)
    (hwait : M m .wait m) : Obeys M (fun m' _ => m' = m) m p := by
  induction p with
  | done a => rfl
  | call r k ih => exact fun x => ⟨m, hcall r x hp.1, ih x (hp.2 x)⟩
  | timer k ih => exact ⟨m, hwait, fun t => ih t (hp t)⟩
  | sleep n k ih => exact ⟨m, hwait, ih hp⟩
  | hang => trivial

/-- A step is allowed, and what is left of the program obeys from there. -/
theorem next? {E : Setting S σ ω} {o : ω} {s s' : σ} {d : Deed S} {p' : Program S α}
    (hp : Obeys M Q m p) (hn : p.next? E o s = some (d, p', s')) :
    ∃ m', M m d m' ∧ Obeys M Q m' p' := by
  rcases next?_cases hn with ⟨r, k, rfl, rfl, rfl, -⟩ | ⟨rfl, -, ⟨k, rfl, rfl⟩ | ⟨n, rfl⟩⟩
  · exact hp _
  · obtain ⟨m', hm', hk⟩ := hp
    exact ⟨m', hm', hk _⟩
  · exact hp

/-- The deeds of a program that obeys are accepted, and what is left of it obeys. -/
theorem takes {ds : List (Deed S)} {q : Program S α} (hp : Obeys M Q m p) (h : p.Takes ds q) :
    ∃ m', Accepts M m ds m' ∧ Obeys M Q m' q := by
  induction h generalizing m with
  | refl p => exact ⟨m, rfl, hp⟩
  | call _ ih =>
    obtain ⟨m₁, hm₁, hk⟩ := hp _
    obtain ⟨m₂, hm₂, hq⟩ := ih hk
    exact ⟨m₂, ⟨m₁, hm₁, hm₂⟩, hq⟩
  | timer _ ih =>
    obtain ⟨m₁, hm₁, hk⟩ := hp
    obtain ⟨m₂, hm₂, hq⟩ := ih (hk _)
    exact ⟨m₂, ⟨m₁, hm₁, hm₂⟩, hq⟩
  | sleep _ ih =>
    obtain ⟨m₁, hm₁, hk⟩ := hp
    obtain ⟨m₂, hm₂, hq⟩ := ih hk
    exact ⟨m₂, ⟨m₁, hm₁, hm₂⟩, hq⟩

end Obeys

end Program

namespace Crowd

variable {S : Service} {σ ω α : Type} {E : Setting S σ ω}

/-- The deeds of one program in a log, in order. -/
def deeds (who : Nat) (log : List (Step S ω)) : List (Deed S) :=
  ((log.filter fun e => e.who = who).map (·.deed)).reverse

theorem deeds_cons_self (who : Nat) (o : ω) (d : Deed S) (log : List (Step S ω)) :
    deeds who (⟨who, o, d⟩ :: log) = deeds who log ++ [d] := by
  simp [deeds]

theorem deeds_cons_of_ne {e : Step S ω} {who : Nat} (h : e.who ≠ who) (log : List (Step S ω)) :
    deeds who (e :: log) = deeds who log := by
  simp [deeds, h]

theorem mem_deeds {who : Nat} {log : List (Step S ω)} {d : Deed S} :
    d ∈ deeds who log ↔ ∃ e ∈ log, e.who = who ∧ e.deed = d := by
  simp [deeds, and_assoc]

/-- What is known of a program by its number: it was never there, or its deeds are a path through
it, at the end of which it stands unless it was dropped. -/
def OnPath (tasks : Nat → Option (Program S α)) (c : Crowd S σ ω α) (i : Nat) : Prop :=
  tasks i = none ∧ c.tasks i = none ∧ deeds i c.log = [] ∨
    ∃ p q, tasks i = some p ∧ p.Takes (deeds i c.log) q ∧ ∀ q', c.tasks i = some q' → q' = q

theorem takes_play (s : σ) (tasks : Nat → Option (Program S α)) (ms : List (Move ω)) (i : Nat) :
    OnPath tasks ((start s tasks).play E ms) i := by
  refine play_invariant (I := fun c => ∀ i, OnPath tasks c i)
    (fun c who o p d p' s' hc ht hn i => ?_)
    (fun c who hc i => ?_) (fun i => ?_) ms i
  · by_cases hi : i = who
    · subst hi
      rcases hc i with ⟨-, hnone, -⟩ | ⟨p₀, q, hp₀, htakes, hq⟩
      · simp [hnone] at ht
      · obtain rfl := hq p ht
        refine .inr ⟨p₀, p', hp₀, ?_, fun q' hq' => ?_⟩
        · show p₀.Takes (deeds i (⟨i, o, d⟩ :: c.log)) p'
          rw [deeds_cons_self]
          exact htakes.concat hn
        · rw [tasks_advance_self, Option.some.injEq] at hq'
          exact hq'.symm
    · have hdeeds : deeds i (c.advance who o d p' s').log = deeds i c.log :=
        deeds_cons_of_ne (fun h => hi h.symm) c.log
      rw [OnPath, hdeeds, tasks_advance_of_ne c hi]
      exact hc i
  · rcases hc i with ⟨hnone, hnone', hdeeds⟩ | ⟨p, q, hp, htakes, hq⟩
    · refine .inl ⟨hnone, ?_, hdeeds⟩
      simp [forget, hnone']
    · exact .inr ⟨p, q, hp, htakes, fun q' hq' => hq q' (c.tasks_forget who i hq')⟩
  · cases hp : tasks i with
    | none => exact .inl ⟨hp, hp, rfl⟩
    | some p => exact .inr ⟨p, p, hp, .refl p, fun q' hq' => Option.some.inj (hq'.symm.trans hp)⟩

/-- A program that has ended does nothing more. -/
theorem deeds_play_of_done {c : Crowd S σ ω α} {who : Nat} {a : α}
    (h : c.tasks who = some (.done a)) (ms : List (Move ω)) :
    deeds who (c.play E ms).log = deeds who c.log := by
  have hover : ∀ q, c.tasks who = some q → q = .done a :=
      fun q hq => Option.some.inj (hq.symm.trans h)
  have hkept : (∀ q, (c.play E ms).tasks who = some q → q = .done a) ∧
      deeds who (c.play E ms).log = deeds who c.log := by
    refine play_invariant
      (I := fun c' =>
        (∀ q, c'.tasks who = some q → q = .done a) ∧ deeds who c'.log = deeds who c.log)
      (fun c' i o p d p' s' hc ht hn => ?_) (fun c' i hc => ?_) ⟨hover, rfl⟩ ms
    · have hi : who ≠ i := by
        rintro rfl
        rw [hc.1 p ht] at hn
        cases hn
      refine ⟨fun q hq => hc.1 q (by rwa [tasks_advance_of_ne c' hi] at hq), ?_⟩
      rw [← hc.2]
      exact deeds_cons_of_ne (fun h => hi h.symm) c'.log
    · exact ⟨fun q hq => hc.1 q (c'.tasks_forget i who hq), hc.2⟩
  exact hkept.2

theorem play_concat (c : Crowd S σ ω α) (ms : List (Move ω)) (mv : Move ω) :
    c.play E (ms ++ [mv]) = (c.play E ms).move E mv := by
  rw [play_append]
  rfl

/-- Every step in a log was taken at some point of the schedule, by a program that was there. -/
theorem exists_step_of_log {s : σ} {tasks : Nat → Option (Program S α)} {ms : List (Move ω)}
    {later earlier : List (Step S ω)} {e : Step S ω}
    (h : ((start s tasks).play E ms).log = later ++ e :: earlier) :
    ∃ ms₁ ms₂ p p' s', ms = ms₁ ++ .step e.who e.circumstances :: ms₂ ∧
      ((start s tasks).play E ms₁).log = earlier ∧
      ((start s tasks).play E ms₁).tasks e.who = some p ∧
      p.next? E e.circumstances ((start s tasks).play E ms₁).state = some (e.deed, p', s') := by
  induction hn : ms.length generalizing ms later with
  | zero =>
    obtain rfl := List.length_eq_zero_iff.1 hn
    cases later <;> simp [play, start] at h
  | succ n ih =>
    rcases List.eq_nil_or_concat ms with rfl | ⟨ms, mv, rfl⟩
    · simp at hn
    rw [List.concat_eq_append] at h hn ⊢
    have hlength : ms.length = n := by simpa using hn
    -- a step that is not the last one was taken in the schedule without its last move
    have hskip : ∀ later', ((start s tasks).play E ms).log = later' ++ e :: earlier →
        ∃ ms₁ ms₂ p p' s', ms ++ [mv] = ms₁ ++ .step e.who e.circumstances :: ms₂ ∧
          ((start s tasks).play E ms₁).log = earlier ∧
          ((start s tasks).play E ms₁).tasks e.who = some p ∧
          p.next? E e.circumstances ((start s tasks).play E ms₁).state = some (e.deed, p', s') := by
      intro later' hlog
      obtain ⟨ms₁, ms₂, p, p', s', rfl, hrest⟩ := ih hlog hlength
      exact ⟨ms₁, ms₂ ++ [mv], p, p', s', by simp, hrest⟩
    rw [play_concat] at h
    rcases ((start s tasks).play E ms).move_cases (E := E) mv with
      hm | ⟨who, hm⟩ | ⟨who, o, p, d, p', s', rfl, ht, hnext, hm⟩
    · exact hskip later (by rw [← h, hm])
    · exact hskip later (by rw [← h, hm]; rfl)
    · rw [hm] at h
      cases later with
      | nil =>
        obtain ⟨rfl, hearlier⟩ := List.cons.inj h
        exact ⟨ms, [], p, p', s', rfl, hearlier, ht, hnext⟩
      | cons e' later => exact hskip later (List.cons.inj h).2

/-- A deed of one program among its others is a step in the log among the others. -/
theorem exists_log_of_deeds {who : Nat} {log : List (Step S ω)} {before after : List (Deed S)}
    {d : Deed S} (h : deeds who log = before ++ d :: after) :
    ∃ later e earlier, log = later ++ e :: earlier ∧ e.who = who ∧ e.deed = d ∧
      deeds who earlier = before ∧ deeds who later = after := by
  induction log generalizing after with
  | nil => simp [deeds] at h
  | cons e log ih =>
    by_cases he : e.who = who
    · subst he
      rw [show e :: log = ⟨e.who, e.circumstances, e.deed⟩ :: log from rfl, deeds_cons_self] at h
      rcases List.eq_nil_or_concat after with rfl | ⟨after, last, rfl⟩
      · obtain ⟨hbefore, hd⟩ := List.append_inj' h rfl
        exact ⟨[], e, log, rfl, rfl, List.singleton_inj.1 hd, hbefore, rfl⟩
      · rw [List.concat_eq_append] at h ⊢
        have hsplit : deeds e.who log ++ [e.deed] = (before ++ d :: after) ++ [last] := by
          simpa using h
        obtain ⟨hlog, hlast⟩ := List.append_inj' hsplit rfl
        obtain ⟨later, e', earlier, hlog', hwho, hd, hbefore, hafter⟩ := ih hlog
        refine ⟨e :: later, e', earlier, by rw [hlog']; rfl, hwho, hd, hbefore, ?_⟩
        rw [show e :: later = ⟨e.who, e.circumstances, e.deed⟩ :: later from rfl,
          deeds_cons_self, hafter, hlast]
    · rw [deeds_cons_of_ne he] at h
      obtain ⟨later, e', earlier, rfl, hwho, hd, hbefore, hafter⟩ := ih h
      exact ⟨e :: later, e', earlier, rfl, hwho, hd, hbefore, by rw [deeds_cons_of_ne he, hafter]⟩

/-- Two deeds that one program did in a row: the moves at which it did them, and the steps of others
in between. -/
theorem exists_moves_of_deeds {s : σ} {tasks : Nat → Option (Program S α)} {ms : List (Move ω)}
    {who : Nat} {before after : List (Deed S)} {x y : Deed S}
    (h : deeds who ((start s tasks).play E ms).log = before ++ x :: y :: after) :
    ∃ ms₁ o ms₂ o' ms₃ between, ms = (ms₁ ++ .step who o :: ms₂) ++ .step who o' :: ms₃ ∧
      ((start s tasks).play E (ms₁ ++ .step who o :: ms₂)).log =
        between ++ ⟨who, o, x⟩ :: ((start s tasks).play E ms₁).log ∧
      (∀ e ∈ between, e.who ≠ who) ∧
      (∃ p p' s', ((start s tasks).play E ms₁).tasks who = some p ∧
        p.next? E o ((start s tasks).play E ms₁).state = some (x, p', s')) ∧
      ∃ p p' s', ((start s tasks).play E (ms₁ ++ .step who o :: ms₂)).tasks who = some p ∧
        p.next? E o' ((start s tasks).play E (ms₁ ++ .step who o :: ms₂)).state =
          some (y, p', s') := by
  obtain ⟨later, u, earlier, hlog, rfl, rfl, -, hlater⟩ := exists_log_of_deeds h
  have hnext : deeds u.who later = [] ++ y :: after := hlater
  obtain ⟨latest, f, between, rfl, hf, rfl, hquiet, -⟩ := exists_log_of_deeds hnext
  rw [List.append_assoc, List.cons_append] at hlog
  obtain ⟨ms', ms₃, q, q', t', rfl, hlog', htq, hnq⟩ := exists_step_of_log hlog
  obtain ⟨ms₁, ms₂, p, p', s', rfl, hlog₁, htp, hnp⟩ := exists_step_of_log hlog'
  rw [hf] at htq
  refine ⟨ms₁, u.circumstances, ms₂, f.circumstances, ms₃, between, hf ▸ rfl, ?_,
    fun e he hwho => ?_, ⟨p, p', s', htp, hnp⟩, q, q', t', htq, hnq⟩
  · rw [hlog', hlog₁]
  · have hdeed : e.deed ∈ deeds u.who between := mem_deeds.2 ⟨e, he, hwho, rfl⟩
    rw [hquiet] at hdeed
    exact absurd hdeed List.not_mem_nil

end Crowd

end GuardedWrites

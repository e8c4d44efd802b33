import GuardedWrites.Proofs.Rate.Traffic
import GuardedWrites.Rate.Exact
import Mathlib.Data.List.Induction

/-!
# Trials of the remote store

After failures the breaker keeps everybody from the remote store. When its time has come it lets one
operation through as a trial, and until that one has reported nobody else. An operation that is
dropped reports nothing.

* `Traffic.Trial` — a trial in a schedule, and nobody has reported since;
* `Traffic.exists_trial` — while the breaker waits, there is a trial, and the operation is still at
  it or was dropped;
* `Traffic.probing_iff_trialLost` — where nobody is at work, the breaker waits exactly if a trial
  was lost;
* `Traffic.arrivals_eq_of_probing` — as long as the breaker waits nobody but a probe calls the
  remote store;
* `Traffic.arrivals_of_not_probing` — when it does not wait, and its time has come, the next check
  does;
* `Traffic.next_check_calls_unless_trialLost` — so it does, unless a trial was lost.
-/

namespace GuardedWrites

namespace Traffic

open Limiter (Operation)

variable {ν ρ ω : Type}

/-- What the breaker makes of the remote store. -/
def health (c : Scene ν ρ ω) : Health := c.state.limiter.breaker.health

/-- How often the remote store was called. -/
def arrivals (log : List (Step (service ν) (Circumstances ω))) : Nat :=
  log.countP fun e => arrives e.deed

/-- Nobody has anything under way at the remote store. -/
def Idle (c : Scene ν ρ ω) : Prop := ∀ i q, c.tasks i = some q → (progress i c.log).stage = .away

variable {E : Setting (service ν) (State ν ρ) (Circumstances ω)} {c : Scene ν ρ ω} {i : Nat}
variable {o : Circumstances ω}
variable {ms ms₁ ms₂ : List (Move (Circumstances ω))}

/-- In a schedule the breaker has let an operation through as its trial after `ms₁`, and nobody has
reported since. -/
structure Trial (E : Setting (service ν) (State ν ρ) (Circumstances ω)) (c : Scene ν ρ ω)
    (ms₁ : List (Move (Circumstances ω))) (i : Nat) (o : Circumstances ω)
    (ms₂ : List (Move (Circumstances ω))) : Prop where
  degraded : health (c.play E ms₁) = .degraded
  granted : health (c.play E (ms₁ ++ [.step i o])) = .probing
  silent : ∃ later, (c.play E (ms₁ ++ .step i o :: ms₂)).log = later ++
    (c.play E (ms₁ ++ [.step i o])).log ∧
    ∀ e ∈ later, reports e.deed = false

/-- The operation that the breaker has let through was dropped, and nobody has reported since. -/
def TrialLost (E : Setting (service ν) (State ν ρ) (Circumstances ω)) (c : Scene ν ρ ω)
    (ms : List (Move (Circumstances ω))) : Prop :=
  ∃ ms₁ i o ms₂, ms = ms₁ ++ .step i o :: ms₂ ∧ Trial E c ms₁ i o ms₂ ∧ .drop i ∈ ms₂

/-- A move after which nobody has reported either. -/
theorem Trial.concat {mv : Move (Circumstances ω)}
    {more : List (Step (service ν) (Circumstances ω))} (h : Trial E c ms₁ i o ms₂)
    (hlog : ((c.play E (ms₁ ++ .step i o :: ms₂)).move E mv).log = more ++
      (c.play E (ms₁ ++ .step i o :: ms₂)).log)
    (hmore : ∀ e ∈ more, reports e.deed = false) :
    Trial E c ms₁ i o (ms₂ ++ [mv]) := by
  obtain ⟨later, hlater, hsilent⟩ := h.silent
  refine ⟨h.degraded, h.granted, more ++ later, ?_, fun e he => ?_⟩
  · rw [show ms₁ ++ .step i o :: (ms₂ ++ [mv]) = (ms₁ ++ .step i o :: ms₂) ++ [mv] by simp,
      Crowd.play_concat, hlog, hlater, List.append_assoc]
  · exact (List.mem_append.1 he).elim (hmore e) (hsilent e)

variable {who : Nat} {d : Deed (service ν)} {q q' : Program (service ν) Operation.Result}
variable {s s' : State ν ρ}

/-- An operation has something under way at the remote store. -/
def AtWork (c : Scene ν ρ ω) (i : Nat) : Prop :=
  ∃ q, c.tasks i = some q ∧ (progress i c.log).stage ≠ .away

theorem AtWork.forget (h : AtWork c i) (hi : i ≠ who) : AtWork (c.forget who) i := by
  obtain ⟨q, hq, hstage⟩ := h
  refine ⟨q, ?_, hstage⟩
  show (if i = who then none else c.tasks i) = some q
  rw [if_neg hi, hq]

theorem AtWork.advance (h : AtWork c i) (hd : reports d = false) :
    AtWork (c.advance who o d q' s') i := by
  obtain ⟨q, hq, hstage⟩ := h
  by_cases hi : i = who
  · subst hi
    refine ⟨q', c.tasks_advance_self i o d q' s', ?_⟩
    show (progress i (⟨i, o, d⟩ :: c.log)).stage ≠ .away
    rw [progress_cons_self]
    intro haway
    rcases Stage.next_eq_away haway with h | h
    · exact hstage h
    · rw [hd] at h
      cases h
  · refine ⟨q, by rw [c.tasks_advance_of_ne hi, hq], ?_⟩
    show (progress i (⟨who, o, d⟩ :: c.log)).stage ≠ .away
    rwa [progress_cons_of_ne fun h => hi h.symm]

theorem atWork_of_granted :
    AtWork (c.advance who o (.call (.own .remoteAllowed) true) q' s') who := by
  refine ⟨q', c.tasks_advance_self _ _ _ _ _, ?_⟩
  show (progress who (⟨who, o, _⟩ :: c.log)).stage ≠ .away
  rw [progress_cons_self]
  exact nofun

variable [Amount ν] {cfg : LimiterSettings} {R : RemoteStep ν ρ ω}
variable {ops : Nat → Option (Operation ν)}

theorem health_advance (hn : q.next? (setting cfg R) o c.state = some (d, q', s')) :
    health (c.advance who o d q' s') = (heard cfg.health o.now c.state.limiter.breaker d).health :=
  congrArg Breaker.health (breaker_of_next? hn)

/-- Where the breaker waits there is a trial that nobody has reported on, and who was let through is
still at it or was dropped. -/
theorem exists_trial (hc : health c ≠ .probing)
    (h : health (c.play (setting cfg R) ms) = .probing) :
    ∃ ms₁ i o ms₂, ms = ms₁ ++ .step i o :: ms₂ ∧ Trial (setting cfg R) c ms₁ i o ms₂ ∧
      (.drop i ∈ ms₂ ∨ AtWork (c.play (setting cfg R) ms) i) := by
  induction ms using List.reverseRecOn with
  | nil => exact absurd h hc
  | append_singleton ms mv ih =>
    rw [Crowd.play_concat] at h ⊢
    -- a trial before the move goes on if the move brings no report
    have hkeep : ∀ more, ((c.play (setting cfg R) ms).move (setting cfg R) mv).log =
        more ++ (c.play (setting cfg R) ms).log → (∀ e ∈ more, reports e.deed = false) →
        health (c.play (setting cfg R) ms) = .probing →
        (∀ i, AtWork (c.play (setting cfg R) ms) i → mv = .drop i ∨
          AtWork ((c.play (setting cfg R) ms).move (setting cfg R) mv) i) →
        ∃ ms₁ i o ms₂, ms ++ [mv] = ms₁ ++ .step i o :: ms₂ ∧ Trial (setting cfg R) c ms₁ i o ms₂ ∧
          (.drop i ∈ ms₂ ∨ AtWork ((c.play (setting cfg R) ms).move (setting cfg R) mv) i) := by
      intro more hlog hmore hprobing hwork
      obtain ⟨ms₁, i, o, ms₂, rfl, htrial, hi⟩ := ih hprobing
      refine ⟨ms₁, i, o, ms₂ ++ [mv], by simp, htrial.concat hlog hmore, ?_⟩
      rcases hi with hdrop | hi
      · exact .inl (List.mem_append_left _ hdrop)
      · rcases hwork i hi with rfl | hi
        · exact .inl (List.mem_append_right _ (.head _))
        · exact .inr hi
    cases mv with
    | drop who =>
      refine hkeep [] rfl (fun e he => nomatch he) h fun i hi => ?_
      by_cases hne : i = who
      · exact .inl (hne ▸ rfl)
      · exact .inr (hi.forget hne)
    | step who o =>
      rcases (c.play (setting cfg R) ms).move_step_cases (E := setting cfg R) who o with hm
        | ⟨q, d, q', s', ht, hn, hm⟩
      · rw [hm] at h hkeep ⊢
        exact hkeep [] rfl (fun e he => nomatch he) h fun i hi => .inr hi
      · rw [hm] at h hkeep ⊢
        rw [health_advance hn] at h
        rcases probing_of_heard h with ⟨hprobing, hd⟩ | ⟨hdegraded, x, rfl, hgranted⟩
        · refine hkeep [⟨who, o, d⟩] rfl (fun e he => ?_) hprobing fun i hi => .inr (hi.advance hd)
          rw [List.mem_singleton.1 he]
          exact hd
        · obtain rfl : x = true := (granted_of_next? hn).trans hgranted
          refine ⟨ms, who, o, [], rfl, ⟨hdegraded, ?_, [], ?_, fun e he => nomatch he⟩,
            .inr atWork_of_granted⟩
          · rw [Crowd.play_concat, hm, health_advance hn]
            exact h
          · rfl

/-- The breaker waits for the report. -/
theorem probing_of_silent {later : List (Step (service ν) (Circumstances ω))}
    (h : health c = .probing) (hlog : (c.play (setting cfg R) ms).log = later ++ c.log)
    (hsilent : ∀ e ∈ later, reports e.deed = false) :
    health (c.play (setting cfg R) ms) = .probing := by
  induction ms generalizing c later with
  | nil => exact h
  | cons mv ms ih =>
    rw [Crowd.play_cons] at hlog ⊢
    rcases c.move_cases (E := setting cfg R) mv with hm
      | ⟨who, hm⟩ | ⟨who, o, q, d, q', s', -, ht, hn, hm⟩
    · rw [hm] at hlog ⊢
      exact ih h hlog hsilent
    · rw [hm] at hlog ⊢
      exact ih h hlog hsilent
    · rw [hm] at hlog ⊢
      obtain ⟨rest, hrest⟩ := (c.advance who o d q' s').log_play (E := setting cfg R) ms
      have hlater : later = rest ++ [⟨who, o, d⟩] := by
        refine (List.append_left_inj c.log).1 ?_
        rw [← hlog, hrest, List.append_assoc]
        rfl
      subst hlater
      refine ih ?_ hrest fun e he => hsilent e (List.mem_append_left _ he)
      rw [health_advance hn, heard_probing h
        (hsilent ⟨who, o, d⟩ (List.mem_append_right _ (.head _)))]
      exact h

/-- In a schedule after which nobody is at work the breaker waits exactly if a trial was lost. -/
theorem probing_iff_trialLost (hc : health c ≠ .probing)
    (hidle : Idle (c.play (setting cfg R) ms)) :
    health (c.play (setting cfg R) ms) = .probing ↔ TrialLost (setting cfg R) c ms := by
  constructor
  · intro h
    obtain ⟨ms₁, i, o, ms₂, hms, htrial, hdrop | ⟨q, hq, hstage⟩⟩ := exists_trial hc h
    · exact ⟨ms₁, i, o, ms₂, hms, htrial, hdrop⟩
    · exact absurd (hidle i q hq) hstage
  · rintro ⟨ms₁, i, o, ms₂, rfl, htrial, -⟩
    obtain ⟨later, hlater, hsilent⟩ := htrial.silent
    have hsplit : ms₁ ++ .step i o :: ms₂ = (ms₁ ++ [.step i o]) ++ ms₂ := by simp
    rw [hsplit, Crowd.play_append] at hlater ⊢
    exact probing_of_silent htrial.granted hlater hsilent

/-- Without a permission an operation neither calls the remote store nor reports, unless it is a
probe. -/
theorem quiet_of_away {op : Operation ν} {p : Progress} (hf : Fits cfg op p d)
    (hp : p.stage = .away) (hop : op ≠ .probe) :
    arrives d = false ∧ reports d = false ∧
    (p.stage.next d = .away ∨ d = .call (.own .remoteAllowed) true) := by
  cases d with
  | wait => exact ⟨rfl, rfl, .inl hp⟩
  | call r x =>
    cases r with
    | own r =>
      cases r with
      | remoteAllowed =>
        cases x with
        | false => exact ⟨rfl, rfl, .inl hp⟩
        | true => exact ⟨rfl, rfl, .inr rfl⟩
      | remoteAnswered =>
        rcases hf with h | ⟨h, -⟩
        · cases hp.symm.trans h
        · cases hp.symm.trans h
      | remoteFailed =>
        rcases hf with h | h
        · cases hp.symm.trans h
        · cases hp.symm.trans h
      | _ => exact ⟨rfl, rfl, .inl hp⟩
    | remote r =>
      cases r with
      | arrive =>
        rcases hf with h | h | ⟨-, h⟩
        · cases hp.symm.trans h
        · cases hp.symm.trans h
        · exact absurd h hop
      | answer r => cases hp.symm.trans (calling_of_fits hf)

/-- As long as the breaker waits and nobody is at work, only probes call the remote store, whoever
comes and however late it is. -/
theorem arrivals_eq_of_probing (hc : OnCourse cfg ops c) (h : health c = .probing) (hidle : Idle c)
    (hms : ∀ who o, .step who o ∈ ms → ops who ≠ some .probe) :
    arrivals (c.play (setting cfg R) ms).log = arrivals c.log := by
  suffices hall : OnCourse cfg ops (c.play (setting cfg R) ms) ∧
      health (c.play (setting cfg R) ms) = .probing ∧
      Idle (c.play (setting cfg R) ms) ∧
      arrivals (c.play (setting cfg R) ms).log = arrivals c.log from hall.2.2.2
  refine Crowd.play_invariant_under
    (I := fun c' => OnCourse cfg ops c' ∧ health c' = .probing ∧ Idle c' ∧
      arrivals c'.log = arrivals c.log)
    (P := fun _ mv => ∀ who o, mv = .step who o → ops who ≠ some .probe)
    (fun c' who o q d q' s' hI hP ht hn => ?_) (fun c' who hI => ?_) ⟨hc, h, hidle, rfl⟩
    (Crowd.throughout_of_mem (P := fun mv => ∀ who o, mv = .step who o →
      ops who ≠ some .probe) ?_ c)
  · obtain ⟨hc, h, hidle, harrivals⟩ := hI
    obtain ⟨op, hop, hf⟩ := hc.fits ht hn
    have hne : op ≠ .probe := by
      rintro rfl
      exact hP who o rfl hop
    obtain ⟨harrives, hreports, hstage⟩ := quiet_of_away hf (hidle who q ht) hne
    have hrefused : d ≠ .call (.own .remoteAllowed) true := by
      rintro rfl
      have hx := granted_of_next? hn
      replace h : c'.state.limiter.breaker.health = .probing := h
      simp [Breaker.allowRemote, h] at hx
    refine ⟨hc.advance ht hn, ?_, fun i q₁ hq₁ => ?_, ?_⟩
    · rw [health_advance hn, heard_probing h hreports]
      exact h
    · show (progress i (⟨who, o, d⟩ :: c'.log)).stage = .away
      rcases Crowd.tasks_advance_cases hq₁ with ⟨rfl, -⟩ | ⟨hi, hq₁⟩
      · rw [progress_cons_self]
        exact hstage.resolve_right hrefused
      · rw [progress_cons_of_ne fun h => hi h.symm]
        exact hidle i q₁ hq₁
    · show List.countP _ (⟨who, o, d⟩ :: c'.log) = _
      rw [List.countP_cons_of_neg (by simp [harrives])]
      exact harrivals
  · exact ⟨hI.1.forget who, hI.2.1, fun i q hq => hI.2.2.1 i q (c'.tasks_forget who i hq), hI.2.2.2⟩
  · rintro mv hmv who o rfl
    exact hms who o hmv

/-! ### The next check -/

/-- A check reads the clock, asks the breaker, and if it may, calls the remote store under a
deadline. -/
theorem perform_check (cfg : LimiterSettings) {op : Operation ν} {key : String} {rule : Rule ν}
    {rest : List (Rule ν)} (hop : op.check? = some (key, rule :: rest))
    (hvalid : Rule.firstFault? (rule :: rest) = none) :
    ∃ k : Moment → Bool → Program (service ν) Operation.Result,
      (limiter cfg true).perform op =
        .call (.own .checkStarted) (fun _ => .call (.own .now) fun t =>
          .call (.own .remoteAllowed) (k t)) ∧
      ∀ t, ∃ k₁, k t true = .timer k₁ ∧ ∀ n, ∃ k₂, k₁ n = .call (.remote .arrive) k₂ := by
  cases op with
  | check key' rules =>
    cases hop
    simp only [Limiter.perform, Limiter.check, hvalid]
    exact ⟨_, rfl, fun t => ⟨_, rfl, fun n => ⟨_, rfl⟩⟩⟩
  | enforce key' rules =>
    cases hop
    simp only [Limiter.perform, Limiter.enforce, Limiter.check, hvalid]
    exact ⟨_, rfl, fun t => ⟨_, rfl, fun n => ⟨_, rfl⟩⟩⟩
  | _ => cases hop

omit [Amount ν] in
/-- When its time has come the breaker lets one through, unless it waits. -/
theorem allowRemote_of_elapsed {b : Breaker} {config : HealthConfig} {now : Moment} {wait : Span}
    (hb : b.health ≠ .probing) (hwait : config.reprobeAfter = some wait)
    (h : wait ≤ b.lastFailure.elapsed now) :
    (b.allowRemote config now).1 = true := by
  rcases Breaker.allowRemote_cases b config now with ⟨-, hx⟩ | ⟨wait', -, -, -,
    hx⟩ | ⟨hhealthy, hearly, -⟩
  · rw [hx]
  · rw [hx]
  · have hdegraded : b.health = .degraded := by
      cases hh : b.health with
      | healthy => exact absurd hh hhealthy
      | degraded => rfl
      | probing => exact absurd hh hb
    exact absurd h (Span.not_le.2 (hearly hdegraded wait hwait))

theorem play_own (cfg : LimiterSettings) (R : RemoteStep ν ρ ω) {r : Limiter.Request ν}
    {k : Limiter.Reply r → Program (service ν) Operation.Result}
    (ht : c.tasks i = some (.call (.own r) k)) (o : Circumstances ω)
    (ms : List (Move (Circumstances ω))) :
    ∃ c' : Scene ν ρ ω, c.play (setting cfg R) (.step i o :: ms) = c'.play (setting cfg R) ms ∧
      c'.tasks i = some (k (Limiter.step cfg o.now c.state.limiter r).1) ∧
      c'.state.limiter = (Limiter.step cfg o.now c.state.limiter r).2 ∧
      arrivals c'.log = arrivals c.log := by
  have hmove : c.move (setting cfg R) (.step i o) = _ := Crowd.move_step ht rfl
  refine ⟨_, Crowd.play_cons _ _ _, ?_, ?_, ?_⟩
  · rw [hmove]
    exact c.tasks_advance_self _ _ _ _ _
  · rw [hmove]
    rfl
  · rw [hmove]
    exact List.countP_cons_of_neg nofun

theorem play_timer (cfg : LimiterSettings) (R : RemoteStep ν ρ ω)
    {k : Nat → Program (service ν) Operation.Result} (ht : c.tasks i = some (.timer k))
    (o : Circumstances ω) (ms : List (Move (Circumstances ω))) :
    ∃ c' : Scene ν ρ ω, c.play (setting cfg R) (.step i o :: ms) = c'.play (setting cfg R) ms ∧
      c'.tasks i = some (k o.timer) ∧ arrivals c'.log = arrivals c.log := by
  have hmove : c.move (setting cfg R) (.step i o) = _ := Crowd.move_step ht rfl
  refine ⟨_, Crowd.play_cons _ _ _, ?_, ?_⟩
  · rw [hmove]
    exact c.tasks_advance_self _ _ _ _ _
  · rw [hmove]
    exact List.countP_cons_of_neg nofun

theorem play_arrive {k : Option Span → Program (service ν) Operation.Result}
    (ht : c.tasks i = some (.call (.remote .arrive) k)) (o : Circumstances ω) :
    arrivals (c.play (setting cfg R) [.step i o]).log = arrivals c.log + 1 := by
  rw [Crowd.play_cons, Crowd.move_step ht rfl]
  exact List.countP_cons_of_pos rfl

/-- When the time has come, and the breaker does not wait, the next check calls the remote store. -/
theorem arrivals_of_not_probing {op : Operation ν} {key : String} {rules : List (Rule ν)}
    {wait : Span} {o₁ o₂ o₃ o₄ o₅ : Circumstances ω}
    (ht : c.tasks i = some ((limiter cfg true).perform op)) (hop : op.check? = some (key, rules))
    (hne : rules ≠ []) (hvalid : Rule.firstFault? rules = none) (h : health c ≠ .probing)
    (hwait : cfg.health.reprobeAfter = some wait)
    (hclock : wait ≤ c.state.limiter.breaker.lastFailure.elapsed o₃.now) :
    arrivals (c.play (setting cfg R)
      [.step i o₁, .step i o₂, .step i o₃, .step i o₄, .step i o₅]).log =
      arrivals c.log + 1 := by
  obtain ⟨rule, rest, rfl⟩ := List.exists_cons_of_ne_nil hne
  obtain ⟨k, hk, hcall⟩ := perform_check cfg hop hvalid
  rw [hk] at ht
  obtain ⟨c₁, hplay₁, ht₁, hlimiter₁, hlog₁⟩ :=
    play_own cfg R ht o₁ [.step i o₂, .step i o₃, .step i o₄, .step i o₅]
  obtain ⟨c₂, hplay₂, ht₂, hlimiter₂, hlog₂⟩ :=
    play_own cfg R ht₁ o₂ [.step i o₃, .step i o₄, .step i o₅]
  obtain ⟨c₃, hplay₃, ht₃, -, hlog₃⟩ := play_own cfg R ht₂ o₃ [.step i o₄, .step i o₅]
  have hgranted : (Limiter.step cfg o₃.now c₂.state.limiter .remoteAllowed).1 = true := by
    rw [hlimiter₂, hlimiter₁]
    exact allowRemote_of_elapsed h hwait hclock
  obtain ⟨k₁, hk₁, hcall⟩ := hcall o₂.now
  replace ht₃ : c₃.tasks i = some (.timer k₁) := by
    rw [← hk₁, ← hgranted]
    exact ht₃
  obtain ⟨c₄, hplay₄, ht₄, hlog₄⟩ := play_timer cfg R ht₃ o₄ [.step i o₅]
  obtain ⟨k₂, hk₂⟩ := hcall o₄.timer
  rw [hk₂] at ht₄
  rw [hplay₁, hplay₂, hplay₃, hplay₄, play_arrive ht₄ o₅, hlog₄, hlog₃, hlog₂, hlog₁]

/-- **When the remote store is called again.** At every point of every run at which nobody has
anything under way, and whatever was dropped before: if no trial was lost, the next check calls the
remote store as soon as the breaker's time has come. If one was lost, no check, status or reset ever
does, however late it is, until a probe comes. -/
theorem next_check_calls_unless_trialLost (cfg : LimiterSettings) (wait : Span)
    (hwait : cfg.health.reprobeAfter = some wait) (R : RemoteStep ν ρ ω)
    (ops : Nat → Option (Operation ν)) (s : State ν ρ) (hs : s.limiter.breaker.health ≠ .probing)
    (ms : List (Move (Circumstances ω))) (c : Scene ν ρ ω)
    (hc : c = (Crowd.start s (calls cfg true ops)).play (setting cfg R) ms) (hidle : Idle c) :
    (¬ TrialLost (setting cfg R) (Crowd.start s (calls cfg true ops)) ms →
      ∀ (i : Nat) (op : Operation ν) (key : String) (rules : List (Rule ν)),
        c.tasks i = some ((limiter cfg true).perform op) →
        op.check? = some (key, rules) → rules ≠ [] →
        Rule.firstFault? rules = none → ∀ o₁ o₂ o₃ o₄ o₅ : Circumstances ω,
          wait ≤ c.state.limiter.breaker.lastFailure.elapsed o₃.now →
          arrivals (c.play (setting cfg R)
            [.step i o₁, .step i o₂, .step i o₃, .step i o₄, .step i o₅]).log =
            arrivals c.log + 1) ∧
    (TrialLost (setting cfg R) (Crowd.start s (calls cfg true ops)) ms →
      ∀ later : List (Move (Circumstances ω)),
        (∀ who o, .step who o ∈ later → ops who ≠ some .probe) →
        arrivals (c.play (setting cfg R) later).log = arrivals c.log) := by
  subst hc
  have hiff := probing_iff_trialLost (c := Crowd.start s (calls cfg true ops)) hs hidle
  refine ⟨fun hkept i op key rules ht hop hne hvalid o₁ o₂ o₃ o₄ o₅ hclock =>
    ?_, fun hlost later hlater => ?_⟩
  · exact arrivals_of_not_probing ht hop hne hvalid (fun h => hkept (hiff.1 h)) hwait hclock
  · exact arrivals_eq_of_probing (onCourse_play cfg true R ops s ms) (hiff.2 hlost) hidle hlater

/-! ### A trial that is dropped -/

/-- Whether none of the operations with numbers below `n` has anything under way. -/
def idle (n : Nat) (c : Scene ν ρ ω) : Bool :=
  (List.range n).all fun i => (c.tasks i).isNone || decide ((progress i c.log).stage = .away)

theorem OnCourse.idle {n : Nat} (hc : OnCourse cfg ops c) (hops : ∀ i, n ≤ i → ops i = none)
    (h : idle n c = true) :
    Idle c := by
  intro i q hq
  obtain ⟨op, hop, -⟩ := hc i q hq
  have hlt : i < n := by
    refine Nat.lt_of_not_le fun hle => ?_
    rw [hops i hle] at hop
    cases hop
  have hi := List.all_eq_true.1 h i (List.mem_range.2 hlt)
  rw [hq] at hi
  exact of_decide_eq_true hi

/-- Five requests a minute. -/
def fiveAMinute : Rule Rat := ⟨some "five", .window ⟨5, 60⟩⟩

/-- Three checks of it for one user. -/
def threeChecks (i : Nat) : Option (Operation Rat) :=
  if i < 3 then some (.check "ann" [fiveAMinute]) else none

/-- One failure trips the breaker. Ten seconds later it tries again. -/
def tryAgain : LimiterSettings := ⟨.standard, ⟨1, some (.ofSecs 10)⟩⟩

/-- The first check fails to reach the remote store. -/
def firstFails : List (Move (Circumstances Switch)) :=
  List.replicate 9 (.step 0 ⟨.ofMillis 0, 0, ⟨some true, none⟩⟩)

/-- The second check is the trial, and it is dropped while the store, which is up again, takes its
time. -/
def trialDropped : List (Move (Circumstances Switch)) :=
  firstFails ++ List.replicate 5
    (.step 1 ⟨.ofMillis 10000, 10000, ⟨some false, some (some (.ofMillis 100))⟩⟩) ++
    [.drop 1]

/-- The third check runs to its end, ten seconds later still. -/
def thirdRuns : List (Move (Circumstances Switch)) :=
  List.replicate 5 (.step 2 ⟨.ofMillis 20000, 20000, ⟨none, none⟩⟩)

/-- The rehearsal with three checks. -/
def rehearsal (ms : List (Move (Circumstances Switch))) : Scene Rat (UnreliableStore Rat) Switch :=
  (Crowd.start ⟨.initial, .initial⟩ (calls tryAgain true threeChecks)).play
    (setting tryAgain flaky) ms

theorem threeChecks_eq_none (i : Nat) (hi : 3 ≤ i) :
    threeChecks i = none := if_neg (Nat.not_lt.2 hi)

/-- Ten seconds after the failure the second check calls the remote store. -/
theorem next_check_calls_unless_trialLost_firstFails :
    tryAgain.health.reprobeAfter = some (.ofSecs 10) ∧ Idle (rehearsal firstFails) ∧
      ∀ o : Circumstances Switch, o.now = .ofMillis 10000 →
        arrivals ((rehearsal firstFails).play (setting tryAgain flaky)
          [.step 1 o, .step 1 o, .step 1 o, .step 1 o, .step 1 o]).log =
            arrivals (rehearsal firstFails).log + 1 := by
  have hidle : Idle (rehearsal firstFails) :=
    (onCourse_play tryAgain true flaky threeChecks ⟨.initial, .initial⟩ firstFails).idle
      threeChecks_eq_none (by decide)
  have hkept : ¬ TrialLost (setting tryAgain flaky)
      (Crowd.start ⟨.initial, .initial⟩ (calls tryAgain true threeChecks))
      firstFails := by
    intro hlost
    have hprobing : health (rehearsal firstFails) = .probing :=
        (probing_iff_trialLost (by decide) hidle).2 hlost
    exact absurd hprobing (by decide)
  refine ⟨rfl, hidle, fun o ho => ?_⟩
  have hcalls := (next_check_calls_unless_trialLost tryAgain (.ofSecs 10) rfl flaky threeChecks
    ⟨.initial, .initial⟩ (by decide) firstFails _ rfl hidle).1 hkept
  refine hcalls 1 (.check "ann" [fiveAMinute]) "ann" [fiveAMinute] rfl rfl (by simp)
    rfl o o o o o ?_
  rw [ho]
  decide

/-- After the dropped trial nobody has anything under way, and the last failure is twenty seconds
ago. The third check runs to its end, and does not call the remote store. -/
theorem third_check_stays_local :
    Idle (rehearsal trialDropped) ∧
      Span.ofSecs 10 ≤ (rehearsal trialDropped).state.limiter.breaker.lastFailure.elapsed
        (.ofMillis 20000) ∧
      (rehearsal trialDropped).tasks 2 =
        some ((limiter tryAgain true).perform (.check "ann" [fiveAMinute])) ∧
      Rule.firstFault? [fiveAMinute] = none ∧
      (((rehearsal trialDropped).play (setting tryAgain flaky) thirdRuns).tasks 2).any
        Program.isDone = true ∧
      arrivals ((rehearsal trialDropped).play (setting tryAgain flaky) thirdRuns).log =
        arrivals (rehearsal trialDropped).log := by
  have hc := onCourse_play tryAgain true flaky threeChecks ⟨.initial, .initial⟩ trialDropped
  exact ⟨hc.idle threeChecks_eq_none (by decide), by decide, rfl, rfl, by decide, by decide⟩

end Traffic

end GuardedWrites

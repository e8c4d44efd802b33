import GuardedWrites.Proofs.Rate.Idle
import GuardedWrites.Proofs.Rate.Traffic
import Mathlib.Data.List.Perm.Subperm

/-!
# Limits across failover

A limiter judges a rule by its remote store or in process, and the breaker may change that from one
rule to the next. The two stores do not know of each other. Each keeps the limit of a window rule by
itself, so checks that come one after another are allowed at most twice as often, however the remote
store fails in between.

* `Traffic.Turn` — what a step does to the slots of one store;
* `Traffic.Books` — the slots of one store keep the limit; `Books.turn` is the step;
* `Traffic.Accounted` — both stores do, at every point of a schedule;
* `Traffic.allowed_le_of_failover` — the limit that holds across both.
-/

namespace GuardedWrites

namespace Traffic

open Limiter (Operation)

variable {ν : Type}

/-! ### The setting -/

/-- Operations of a limiter with the remote store of rehearsals. -/
abbrev Rehearsal (ν : Type) := Scene ν (UnreliableStore ν) Switch

/-- The key that the next step gives up to make room, in process or at the remote store. -/
def givesUp? (cfg : LimiterSettings) (o : Circumstances Switch) (s : State ν (UnreliableStore ν)) :
    Request ν → Option String
  | .own (.judge key _ now) => s.limiter.slots.victim? cfg.policy key now
  | .remote (.answer (.judge key _ now)) =>
    if (s.remote.switch o.remote).down then none
    else s.remote.slots.victim? (.leastRecent EvictionPolicy.defaultMaxKeys) key now
  | _ => none

/-- An operation is a check. -/
def IsCheck (ops : Nat → Option (Operation ν)) (i : Nat) : Prop :=
  ∃ op, ops i = some op ∧ op.check?.isSome = true

/-- A move of a run in which checks come one after another, the clock does not step back, and a key
is kept. -/
structure Orderly (cfg : LimiterSettings) (ops : Nat → Option (Operation ν)) (k : String)
    (c : Rehearsal ν) (who : Nat) (o : Circumstances Switch) : Prop where
  /-- When a check goes on, every other one has not begun, has ended or was dropped. -/
  inTurn : IsCheck ops who → ∀ i, i ≠ who → IsCheck ops i →
    Crowd.deeds i c.log = [] ∨ ∀ q, c.tasks i = some q → q.isDone = true
  forward : ∀ e ∈ c.log, e.circumstances.now ≤ o.now
  kept : ∀ r next, c.tasks who = some (.call r next) → givesUp? cfg o c.state r ≠ some k

/-- A whole run of that kind. -/
def RunsOrderly [Amount ν] (cfg : LimiterSettings) (ops : Nat → Option (Operation ν)) (k : String)
    (c : Rehearsal ν) (ms : List (Move (Circumstances Switch))) : Prop :=
  Crowd.Throughout (setting cfg flaky)
    (fun c mv => ∀ who o, mv = .step who o → Orderly cfg ops k c who o) c ms

/-- A check of `key` whose rules include `rule` read the clock at `t` and was allowed. -/
structure Allowed (ops : Nat → Option (Operation ν)) (c : Rehearsal ν) (key : String)
    (rule : Rule ν) (i : Nat) (t : Moment) : Prop where
  asked : ∃ op rules, ops i = some op ∧ op.check? = some (key, rules) ∧ rule ∈ rules
  read : (.call (.own .now) t : Deed (service ν)) ∈ Crowd.deeds i c.log
  verdict : ∃ v, c.tasks i = some (.done (.verdict (.ok v))) ∧ v.allowed = true

/-- The key of a request that a deed has had judged in process. -/
def judgesHere? : Deed (service ν) → Option String
  | .call (.own (.judge key _ _)) _ => some key
  | _ => none

/-- The key of a request that a deed has had judged by the remote store. -/
def judgesAfar? : Deed (service ν) → Option String
  | .call (.remote (.answer (.judge key _ _))) (.ok _) => some key
  | _ => none

/-- All requests under a key were judged by the same store. -/
def SameStore (k : String) (log : List (Step (service ν) (Circumstances Switch))) : Prop :=
  (∀ e ∈ log, judgesHere? e.deed ≠ some k) ∨ ∀ e ∈ log, judgesAfar? e.deed ≠ some k

/-! ### Admissions in a log -/

section Admissions

variable {ω : Type} {k : String} {e : Step (service ν) (Circumstances ω)}
variable {log : List (Step (service ν) (Circumstances ω))}
variable {admits : Deed (service ν) → Option (String × Moment)}

/-- The time of an admission under a key. -/
def timeUnder (k : String) (x : Option (String × Moment)) : Option Moment :=
  x.bind fun x => if x.1 = k then some x.2 else none

theorem timeUnder_eq_some {x : Option (String × Moment)} {t : Moment} :
    timeUnder k x = some t ↔ x = some (k, t) := by
  cases x with
  | none => simp [timeUnder]
  | some x =>
    obtain ⟨key, now⟩ := x
    by_cases h : key = k <;> simp [timeUnder, h]

/-- Who was admitted under a key, and when. -/
def admissions (admits : Deed (service ν) → Option (String × Moment)) (k : String)
    (log : List (Step (service ν) (Circumstances ω))) : List (Nat × Moment) :=
  log.filterMap fun e => (timeUnder k (admits e.deed)).map fun t => (e.who, t)

/-- The times of the admissions under a key. -/
def times (admits : Deed (service ν) → Option (String × Moment)) (k : String)
    (log : List (Step (service ν) (Circumstances ω))) : List Moment :=
  (admissions admits k log).map Prod.snd

theorem times_cons :
    times admits k (e :: log) = (timeUnder k (admits e.deed)).toList ++ times admits k log := by
  unfold times admissions
  rw [List.filterMap_cons]
  cases timeUnder k (admits e.deed) <;> rfl

theorem mem_admissions {i : Nat} {t : Moment} :
    (i, t) ∈ admissions admits k log ↔ ∃ e ∈ log, e.who = i ∧ admits e.deed = some (k, t) := by
  unfold admissions
  rw [List.mem_filterMap]
  constructor
  · rintro ⟨e, he, h⟩
    obtain ⟨t', ht, hpair⟩ := Option.map_eq_some_iff.1 h
    cases hpair
    exact ⟨e, he, rfl, timeUnder_eq_some.1 ht⟩
  · rintro ⟨e, he, rfl, h⟩
    exact ⟨e, he, by rw [timeUnder_eq_some.2 h]; rfl⟩

theorem times_eq_nil (h : ∀ e ∈ log, ∀ t, admits e.deed ≠ some (k, t)) :
    times admits k log = [] := by
  refine List.map_eq_nil_iff.2 (List.eq_nil_iff_forall_not_mem.2 fun x hx => ?_)
  obtain ⟨e, he, -, hadmits⟩ := mem_admissions.1 hx
  exact h e he _ hadmits

/-- Different ones that were admitted somewhere are no more than the admissions. -/
theorem length_le_countP_add {here afar : List (Nat × Moment)} {allowed : List Nat}
    (p : Moment → Bool) (hnodup : allowed.Nodup)
    (h : ∀ i ∈ allowed, ∃ t, (i, t) ∈ here ++ afar ∧ p t = true) :
    allowed.length ≤ (here.map Prod.snd).countP p + (afar.map Prod.snd).countP p := by
  have hsub : allowed ⊆ ((here ++ afar).filter fun x => p x.2).map Prod.fst := by
    intro i hi
    obtain ⟨t, ht, hp⟩ := h i hi
    exact List.mem_map.2 ⟨(i, t), List.mem_filter.2 ⟨ht, hp⟩, rfl⟩
  have hle := (List.subperm_of_subset hnodup hsub).length_le
  rw [List.length_map, List.filter_append, List.length_append, ← List.countP_eq_length_filter,
    ← List.countP_eq_length_filter] at hle
  rw [List.countP_map, List.countP_map]
  exact hle

/-- The key of what was passed is that of an admission. -/
theorem exists_admits_of_passed {i : Nat} (h : k ∈ (progress i log).passed) :
    ∃ e ∈ log, e.who = i ∧ ∃ t, admitsHere? e.deed = some (k, t) ∨
      admitsAfar? e.deed = some (k, t) := by
  induction log with
  | nil => cases h
  | cons e log ih =>
    have hrest : k ∈ (progress i log).passed → ∃ e' ∈ e :: log, e'.who = i ∧
        ∃ t, admitsHere? e'.deed = some (k, t) ∨ admitsAfar? e'.deed = some (k, t) := by
      intro h
      obtain ⟨e', he', hwho⟩ := ih h
      exact ⟨e', .tail _ he', hwho⟩
    by_cases hi : e.who = i
    · subst hi
      rw [show e :: log = ⟨e.who, e.circumstances, e.deed⟩ :: log from rfl, progress_cons_self] at h
      rcases List.mem_append.1 h with h | h
      · refine ⟨e, .head _, rfl, ?_⟩
        obtain ⟨x, hx, rfl⟩ := Option.map_eq_some_iff.1 (Option.mem_toList.1 h)
        exact ⟨x.2, (Option.or_eq_some_iff.1 hx).imp id fun h => h.2⟩
      · exact hrest h
    · rw [progress_cons_of_ne hi] at h
      exact hrest h

end Admissions

/-! ### One store -/

section OneStore

variable {policy : EvictionPolicy} {k : String} {l : WindowLimit} {s s' : Slots ν}
variable {admitted : List Moment}
variable {t : Moment} {before after : Moment → Prop} {x : Option (String × Moment)}

/-- At `t` slots keep the limit under a key, and will judge as a log of their admissions would. -/
structure Books (k : String) (l : WindowLimit) (s : Slots ν) (admitted : List Moment)
    (t : Moment) : Prop where
  tracked : ∃ w, Slots.Tracks k l s w t ∧ Window.Recalls l w admitted t
  sparse : Window.Sparse l admitted

theorem books_empty (k : String) (l : WindowLimit) (t : Moment) :
    Books k l (Slots.empty : Slots ν) [] t :=
  ⟨⟨.empty, .empty k l t, Window.recalls_empty l t⟩, fun _ => Nat.zero_le _⟩

theorem Books.mono {t' : Moment} (h : Books k l s admitted t) (ht : t ≤ t') :
    Books k l s admitted t' := by
  obtain ⟨w, hw, hr⟩ := h.tracked
  exact ⟨⟨w, hw.mono ht, hr.mono ht⟩, h.sparse⟩

variable [Amount ν]

/-- What a step does to the slots of a store, and which admission it brings: it has a request judged
at a time that is up to date, it makes them forget other keys, or it leaves them as they are. -/
inductive Turn (policy : EvictionPolicy) (k : String) (l : WindowLimit)
    (before after : Moment → Prop) (s : Slots ν) : Slots ν → Option (String × Moment) → Prop where
  | judged {key : String} {a : Algorithm ν} {now : Moment} (sole : key = k → a = .window l)
      (kept : s.victim? policy key now ≠ some k) (current : before now)
      (later : ∀ t, after t → now ≤ t) :
      Turn policy k l before after s (s.judge policy key a now).2
        (if (s.judge policy key a now).1.allowed then some (key, now) else none)
  | forgotten {start : String} (spared : Slots.startsWith start k = false) :
      Turn policy k l before after s (s.removeStarting start).2 none
  | untouched : Turn policy k l before after s s none

/-- Each turn keeps the books in order. -/
theorem Books.turn (h : ∀ t, before t → Books k l s admitted t) (hsub : ∀ t, after t → before t)
    (hturn : Turn policy k l before after s s' x) (ht : after t) :
    Books k l s' ((timeUnder k x).toList ++ admitted) t := by
  cases hturn with
  | untouched => exact h t (hsub t ht)
  | forgotten spared =>
    obtain ⟨⟨w, hw, hr⟩, hsparse⟩ := h t (hsub t ht)
    exact ⟨⟨w, hw.removeStarting spared, hr⟩, hsparse⟩
  | @judged key a now sole kept current later =>
    obtain ⟨⟨w, hw, hr⟩, hsparse⟩ := h now current
    refine Books.mono ?_ (later t ht)
    by_cases hk : key = k
    · subst hk
      obtain rfl := sole rfl
      obtain ⟨ho, hs⟩ := hw.judge_self policy (Moment.le_refl now)
      have hlogged :
          (timeUnder key (if (s.judge policy key (.window l) now).1.allowed
            then some (key, now) else none)).toList ++
            admitted = Window.logged (w.hit l now).1 now admitted := by
        rw [ho, Window.logged]
        cases (w.hit l now).1.allowed <;> simp [timeUnder]
      rw [hlogged]
      exact ⟨⟨_, hs, hr.hit (Moment.le_refl now)⟩, hr.sparse_hit hsparse (Moment.le_refl now)⟩
    · have hnone :
          timeUnder k (if (s.judge policy key a now).1.allowed
            then some (key, now) else none) = none := by
        cases (s.judge policy key a now).1.allowed <;> simp [timeUnder, hk]
      rw [hnone]
      exact ⟨⟨w, hw.judge_other (Moment.le_refl now) hk kept a, hr⟩, hsparse⟩

end OneStore

/-! ### Both stores -/

section BothStores

variable {cfg : LimiterSettings} {ops : Nat → Option (Operation ν)} {k : String} {l : WindowLimit}
variable {c : Rehearsal ν} {i who : Nat} {o : Circumstances Switch} {d : Deed (service ν)}
variable {t : Moment}
variable {q q' : Program (service ν) Operation.Result} {s' : State ν (UnreliableStore ν)}

/-- No check has read the clock after `t`. -/
def UpTo (ops : Nat → Option (Operation ν)) (log : List (Step (service ν) (Circumstances Switch)))
    (t : Moment) : Prop :=
  ∀ i r, IsCheck ops i → (progress i log).reading = some r → r ≤ t

variable [Amount ν]

/-- What holds of a limiter and its remote store at every point of an orderly run. -/
structure Accounted (cfg : LimiterSettings) (ops : Nat → Option (Operation ν)) (k : String)
    (l : WindowLimit) (c : Rehearsal ν) : Prop where
  onCourse : OnCourse cfg ops c
  /-- What an operation has read was the time at a step. -/
  clock : ∀ i t, (progress i c.log).reading = some t → ∃ e ∈ c.log, e.circumstances.now = t
  reads : ∀ e ∈ c.log, ∀ t, reading? e.deed = some t → (progress e.who c.log).reading = some t
  /-- A check that is at work has read the clock last. -/
  latest : ∀ i q t, IsCheck ops i → c.tasks i = some q → q.isDone = false →
    (progress i c.log).reading = some t → UpTo ops c.log t
  /-- What an operation was admitted at is what it has read. -/
  stamped : ∀ e ∈ c.log, ∀ key t, admitsHere? e.deed = some (key, t) ∨
    admitsAfar? e.deed = some (key, t) → (progress e.who c.log).reading = some t
  here : ∀ t, UpTo ops c.log t → Books k l c.state.limiter.slots (times admitsHere? k c.log) t
  afar : ∀ t, UpTo ops c.log t → Books k l c.state.remote.slots (times admitsAfar? k c.log) t

theorem Judges.isCheck {op : Operation ν} {a : Algorithm ν} (h : Judges cfg op k a)
    (hop : ops i = some op) :
    IsCheck ops i := by
  obtain ⟨key, rules, hcheck, -⟩ := h
  exact ⟨op, hop, by rw [hcheck]; rfl⟩

/-- The clock is read once. -/
theorem reading_next {op : Operation ν} {p : Progress} (hf : Fits cfg op p d)
    (h : p.reading = some t) :
    (p.next d).reading = some t := by
  show (reading? d).or p.reading = some t
  cases hr : reading? d with
  | none => exact h
  | some t' =>
    unfold reading? at hr
    split at hr
    · have hnone : p.reading = none := hf
      rw [hnone] at h
      cases h
    · cases hr

/-- What an operation has read it keeps when any of them goes on. -/
theorem OnCourse.reading_advance (hc : OnCourse cfg ops c) (ht : c.tasks who = some q)
    (hn : q.next? (setting cfg flaky) o c.state = some (d, q', s'))
    (hr : (progress i c.log).reading = some t) :
    (progress i (c.advance who o d q' s').log).reading = some t := by
  obtain ⟨op, -, hf⟩ := hc.fits ht hn
  show (progress i (⟨who, o, d⟩ :: c.log)).reading = some t
  by_cases hi : who = i
  · subst hi
    rw [progress_cons_self]
    exact reading_next hf hr
  · rwa [progress_cons_of_ne hi]

theorem OnCourse.upTo_of_advance (hc : OnCourse cfg ops c) (ht : c.tasks who = some q)
    (hn : q.next? (setting cfg flaky) o c.state = some (d, q', s'))
    (h : UpTo ops (c.advance who o d q' s').log t) : UpTo ops c.log t :=
  fun i r hi hr => h i r hi (hc.reading_advance ht hn hr)

/-- An operation that reads something new, reads the time of its step. -/
theorem reading_of_advance (hn : q.next? (setting cfg flaky) o c.state = some (d, q', s'))
    (hr : (progress i (c.advance who o d q' s').log).reading = some t) :
    (progress i c.log).reading = some t ∨ i = who ∧ t = o.now := by
  replace hr : (progress i (⟨who, o, d⟩ :: c.log)).reading = some t := hr
  by_cases hi : who = i
  · subst hi
    rw [progress_cons_self] at hr
    replace hr : (reading? d).or (progress who c.log).reading = some t := hr
    cases hread : reading? d with
    | none =>
      rw [hread] at hr
      exact .inl hr
    | some t' =>
      rw [hread] at hr
      obtain rfl : t' = t := Option.some.inj hr
      unfold reading? at hread
      split at hread
      · obtain ⟨hx, -⟩ := Program.answer_of_next? hn
        exact .inr ⟨rfl, (Option.some.inj hread).symm.trans hx⟩
      · cases hread
  · rw [progress_cons_of_ne hi] at hr
    exact .inl hr

/-- A store key that one window rule has for itself, and that nobody asks to forget. -/
structure Dedicated (cfg : LimiterSettings) (ops : Nat → Option (Operation ν)) (k : String)
    (l : WindowLimit) : Prop where
  sole : ∀ i op a, ops i = some op → Judges cfg op k a → a = .window l
  spared : ∀ i key, ops i = some (.reset key) → Slots.startsWith (cfg.storeStart key) k = false

/-- What a check judges at is the last reading of the clock. -/
theorem Accounted.judged_now (hc : Accounted cfg ops k l c) (ht : c.tasks who = some q)
    (hn : q.next? (setting cfg flaky) o c.state = some (d, q', s')) (hcheck : IsCheck ops who)
    (hr : (progress who c.log).reading = some t) :
    UpTo ops c.log t ∧ ∀ t', UpTo ops (c.advance who o d q' s').log t' → t ≤ t' :=
  ⟨hc.latest who q t hcheck ht (Program.isDone_of_next? hn) hr,
    fun _ h => h who t hcheck (hc.onCourse.reading_advance ht hn hr)⟩

theorem Accounted.turn_here (hk : Dedicated cfg ops k l) (hc : Accounted cfg ops k l c)
    (ho : Orderly cfg ops k c who o) (ht : c.tasks who = some q)
    (hn : q.next? (setting cfg flaky) o c.state = some (d, q', s')) :
    Turn cfg.policy k l (UpTo ops c.log)
      (UpTo ops (c.advance who o d q' s').log) c.state.limiter.slots
      s'.limiter.slots (admitsHere? d) := by
  obtain ⟨op, hop, hf⟩ := hc.onCourse.fits ht hn
  rcases Program.next?_cases hn with ⟨r, next, rfl, rfl, rfl, rfl⟩ | ⟨rfl, rfl, -⟩
  · cases r with
    | remote r => cases r <;> exact .untouched
    | own r =>
      cases r with
      | judge key a now =>
        obtain ⟨-, hr, hj⟩ := hf
        obtain ⟨hcurrent, hlater⟩ := hc.judged_now ht hn (hj.isCheck hop) hr
        refine .judged ?_ (ho.kept _ next ht) hcurrent hlater
        rintro rfl
        exact hk.sole who op a hop hj
      | forget start =>
        obtain ⟨-, key, rfl, rfl⟩ := hf
        exact .forgotten (hk.spared who key hop)
      | _ => exact .untouched
  · exact .untouched

/-- A call is refused, or answered by the slots. -/
theorem answer_cases (s : UnreliableStore ν) (r : RateStore.Request ν) :
    (∃ e, (s.answer r).1 = .error e) ∧ (s.answer r).2.slots = s.slots ∨
      s.down = false ∧
        (s.answer r).1 =
          .ok (RateStore.ofSlots (.leastRecent EvictionPolicy.defaultMaxKeys) s.slots r).1 ∧
        (s.answer r).2.slots =
          (RateStore.ofSlots (.leastRecent EvictionPolicy.defaultMaxKeys) s.slots r).2 := by
  unfold UnreliableStore.answer
  cases hdown : s.down with
  | true => exact .inl ⟨⟨_, rfl⟩, rfl⟩
  | false => exact .inr ⟨rfl, rfl, rfl⟩

omit [Amount ν] in
theorem slots_arrive (s : UnreliableStore ν) : s.arrive.2.slots = s.slots := by
  unfold UnreliableStore.arrive
  cases s.schedule <;> rfl

theorem Accounted.turn_afar (hk : Dedicated cfg ops k l) (hc : Accounted cfg ops k l c)
    (ho : Orderly cfg ops k c who o) (ht : c.tasks who = some q)
    (hn : q.next? (setting cfg flaky) o c.state = some (d, q', s')) :
    Turn (.leastRecent EvictionPolicy.defaultMaxKeys) k l (UpTo ops c.log)
      (UpTo ops (c.advance who o d q' s').log)
      c.state.remote.slots s'.remote.slots (admitsAfar? d) := by
  obtain ⟨op, hop, hf⟩ := hc.onCourse.fits ht hn
  rcases Program.next?_cases hn with ⟨r, next, rfl, rfl, rfl, rfl⟩ | ⟨rfl, rfl, -⟩
  · cases r with
    | own r => cases r <;> exact .untouched
    | remote r =>
      cases r with
      | arrive =>
        have hslots : ((c.state.remote.switch o.remote).arrive.2).slots = c.state.remote.slots :=
            slots_arrive _
        show Turn _ k l _ _ _ ((c.state.remote.switch o.remote).arrive.2).slots none
        rw [hslots]
        exact .untouched
      | answer r =>
        show Turn _ k l _ _ _ ((c.state.remote.switch o.remote).answer r).2.slots
          (admitsAfar? (.call (.remote (.answer r)) ((c.state.remote.switch o.remote).answer r).1))
        rcases answer_cases (c.state.remote.switch o.remote) r with ⟨⟨e, hx⟩,
          hslots⟩ | ⟨hdown, hx, hslots⟩
        · rw [hx, hslots]
          cases r <;> exact .untouched
        · rw [hx, hslots]
          cases r with
          | judge key a now =>
            obtain ⟨-, hr, hj⟩ := hf
            obtain ⟨hcurrent, hlater⟩ := hc.judged_now ht hn (hj.isCheck hop) hr
            refine .judged ?_ ?_ hcurrent hlater
            · rintro rfl
              exact hk.sole who op a hop hj
            · have hkept := ho.kept _ next ht
              unfold givesUp? at hkept
              rwa [hdown] at hkept
          | clearStarting start =>
            obtain ⟨-, key, rfl, rfl⟩ := hf
            exact .forgotten (hk.spared who key hop)
          | _ => exact .untouched
  · exact .untouched

/-- An admission is stamped with what the operation has read. -/
theorem reading_of_admits {op : Operation ν} {p : Progress} {key : String} (hf : Fits cfg op p d)
    (h : admitsHere? d = some (key, t) ∨ admitsAfar? d = some (key, t)) : p.reading = some t := by
  rcases h with h | h
  · obtain ⟨a, o, rfl⟩ := judge_of_admitsHere? h
    exact hf.2.1
  · obtain ⟨a, o, rfl⟩ := judge_of_admitsAfar? h
    exact hf.2.1

omit [Amount ν] in
theorem reading_eq_none_of_deeds {log : List (Step (service ν) (Circumstances Switch))}
    (h : Crowd.deeds i log = []) : (progress i log).reading = none := by
  unfold progress
  rw [h]
  rfl

/-- What is read is the time of a step. -/
theorem Accounted.clock_advance (hc : Accounted cfg ops k l c)
    (hn : q.next? (setting cfg flaky) o c.state = some (d, q', s'))
    (hr : (progress i (c.advance who o d q' s').log).reading = some t) :
    ∃ e ∈ (c.advance who o d q' s').log, e.circumstances.now = t := by
  rcases reading_of_advance hn hr with hr | ⟨rfl, rfl⟩
  · obtain ⟨e, he, htime⟩ := hc.clock i t hr
    exact ⟨e, .tail _ he, htime⟩
  · exact ⟨_, .head _, rfl⟩

/-- Because the checks come one after another, the one that goes on has read the clock last. -/
theorem Accounted.latest_advance (hc : Accounted cfg ops k l c) (ho : Orderly cfg ops k c who o)
    (ht : c.tasks who = some q) (hn : q.next? (setting cfg flaky) o c.state = some (d, q', s')) {q₁}
    (hi : IsCheck ops i) (hq₁ : (c.advance who o d q' s').tasks i = some q₁)
    (hdone : q₁.isDone = false) (hr : (progress i (c.advance who o d q' s').log).reading = some t) :
    UpTo ops (c.advance who o d q' s').log t := by
  intro j r hj hrj
  rcases Crowd.tasks_advance_cases hq₁ with ⟨rfl, rfl⟩ | ⟨hne, hq₁⟩
  · rcases reading_of_advance hn hr with hold | ⟨-, rfl⟩
    · rcases reading_of_advance hn hrj with hrj | ⟨rfl, rfl⟩
      · exact hc.latest i q t hi ht (Program.isDone_of_next? hn) hold j r hj hrj
      · obtain rfl := Option.some.inj (hr.symm.trans hrj)
        exact Moment.le_refl _
    · -- a new reading is at least as late as every step before, and the others have read at steps
      obtain ⟨e, he, rfl⟩ := hc.clock_advance hn hrj
      rcases List.mem_cons.1 he with rfl | he
      · exact Moment.le_refl _
      · exact ho.forward e he
  · have hold : (progress i c.log).reading = some t :=
      (reading_of_advance hn hr).resolve_right fun h => hne h.1
    by_cases hwho : IsCheck ops who
    · -- another check that has read the clock has ended or was dropped
      rcases ho.inTurn hwho i hne hi with hdeeds | hover
      · rw [reading_eq_none_of_deeds hdeeds] at hold
        cases hold
      · rw [hover q₁ hq₁] at hdone
        cases hdone
    · have hrj : (progress j c.log).reading = some r := by
        refine (reading_of_advance hn hrj).resolve_right ?_
        rintro ⟨rfl, -⟩
        exact hwho hj
      exact hc.latest i q₁ t hi hq₁ hdone hold j r hj hrj

/-- Each step of an orderly run keeps the account. -/
theorem Accounted.advance (hk : Dedicated cfg ops k l) (hc : Accounted cfg ops k l c)
    (ho : Orderly cfg ops k c who o) (ht : c.tasks who = some q)
    (hn : q.next? (setting cfg flaky) o c.state = some (d, q', s')) :
    Accounted cfg ops k l (c.advance who o d q' s') := by
  have hsub : ∀ t, UpTo ops (c.advance who o d q' s').log t → UpTo ops c.log t :=
    fun t h => hc.onCourse.upTo_of_advance ht hn h
  refine ⟨hc.onCourse.advance ht hn, fun i t hr => hc.clock_advance hn hr, fun e he t h => ?_,
    fun i q₁ t hi hq₁ hdone hr => hc.latest_advance ho ht hn hi hq₁ hdone hr,
    fun e he key t h => ?_, fun t hup => ?_, fun t hup => ?_⟩
  · rcases List.mem_cons.1 he with rfl | he
    · show (progress who (⟨who, o, d⟩ :: c.log)).reading = some t
      rw [progress_cons_self]
      show (reading? d).or _ = some t
      rw [h]
      rfl
    · exact hc.onCourse.reading_advance ht hn (hc.reads e he t h)
  · rcases List.mem_cons.1 he with rfl | he
    · obtain ⟨op, -, hf⟩ := hc.onCourse.fits ht hn
      exact hc.onCourse.reading_advance ht hn (reading_of_admits hf h)
    · exact hc.onCourse.reading_advance ht hn (hc.stamped e he key t h)
  · show Books k l s'.limiter.slots (times admitsHere? k (⟨who, o, d⟩ :: c.log)) t
    rw [times_cons]
    exact Books.turn hc.here hsub (hc.turn_here hk ho ht hn) hup
  · show Books k l s'.remote.slots (times admitsAfar? k (⟨who, o, d⟩ :: c.log)) t
    rw [times_cons]
    exact Books.turn hc.afar hsub (hc.turn_afar hk ho ht hn) hup

theorem Accounted.forget (hc : Accounted cfg ops k l c) (who : Nat) :
    Accounted cfg ops k l (c.forget who) :=
  ⟨hc.onCourse.forget who, hc.clock, hc.reads, fun i q t hi hq =>
    hc.latest i q t hi (c.tasks_forget who i hq), hc.stamped, hc.here, hc.afar⟩

theorem Accounted.start {s : State ν (UnreliableStore ν)} (hhere : s.limiter.slots = .empty)
    (hafar : s.remote.slots = .empty) :
    Accounted cfg ops k l (Crowd.start s (calls cfg true ops) : Rehearsal ν) where
  onCourse := OnCourse.start cfg true ops s
  clock i t hr := nomatch hr
  reads e he := nomatch he
  latest i q t _ _ _ hr := nomatch hr
  stamped e he := nomatch he
  here t _ := by
    show Books k l s.limiter.slots [] t
    rw [hhere]
    exact books_empty k l t
  afar t _ := by
    show Books k l s.remote.slots [] t
    rw [hafar]
    exact books_empty k l t

theorem accounted_play {s : State ν (UnreliableStore ν)} (hhere : s.limiter.slots = .empty)
    (hafar : s.remote.slots = .empty) (hk : Dedicated cfg ops k l)
    {ms : List (Move (Circumstances Switch))}
    (hms : RunsOrderly cfg ops k (Crowd.start s (calls cfg true ops)) ms) :
    Accounted cfg ops k l ((Crowd.start s (calls cfg true ops)).play (setting cfg flaky) ms) :=
  Crowd.play_invariant_under (fun _ who o _ _ _ _ hc ho ht hn => hc.advance hk (ho who o rfl) ht hn)
    (fun _ who hc => hc.forget who) (Accounted.start hhere hafar) hms

omit [Amount ν] in
theorem exists_time_after (log : List (Step (service ν) (Circumstances Switch))) :
    ∃ t : Moment, ∀ e ∈ log, e.circumstances.now ≤ t := by
  induction log with
  | nil => exact ⟨.epoch, fun e he => absurd he List.not_mem_nil⟩
  | cons e log ih =>
    obtain ⟨t, ht⟩ := ih
    refine ⟨e.circumstances.now.latest t, fun e' he' => ?_⟩
    rcases List.mem_cons.1 he' with rfl | he'
    · exact Moment.le_latest_left _ _
    · exact Moment.le_trans (ht e' he') (Moment.le_latest_right _ _)

/-- Each of the two stores has kept the limit. -/
theorem Accounted.sparse (hc : Accounted cfg ops k l c) :
    Window.Sparse l (times admitsHere? k c.log) ∧ Window.Sparse l (times admitsAfar? k c.log) := by
  obtain ⟨t, ht⟩ := exists_time_after c.log
  have hup : UpTo ops c.log t := by
    intro i r _ hr
    obtain ⟨e, he, rfl⟩ := hc.clock i r hr
    exact ht e he
  exact ⟨(hc.here t hup).sparse, (hc.afar t hup).sparse⟩

/-- A check that was allowed was admitted under the store key of each of its rules, at the time that
it read. -/
theorem Accounted.mem_admissions {key : String} {rule : Rule ν} (hc : Accounted cfg ops k l c)
    (hkey : cfg.storeKey key rule.label = k) (h : Allowed ops c key rule i t) :
    (i, t) ∈ admissions admitsHere? k c.log ++ admissions admitsAfar? k c.log := by
  obtain ⟨op, rules, hop, hcheck, hmem⟩ := h.asked
  obtain ⟨v, htask, hv⟩ := h.verdict
  obtain ⟨op', hop', hends⟩ := hc.onCourse.ends htask
  obtain rfl := Option.some.inj (hop.symm.trans hop')
  have hpassed : k ∈ (progress i c.log).passed := by
    rw [← hkey]
    exact hends.passed v key rules rfl hv hcheck rule hmem
  obtain ⟨e, he, rfl, t', hadmits⟩ := exists_admits_of_passed hpassed
  obtain ⟨e', he', hwho, hdeed⟩ := Crowd.mem_deeds.1 h.read
  have hread : (progress e.who c.log).reading = some t := by
    rw [← hwho]
    exact hc.reads e' he' t (by rw [hdeed]; rfl)
  obtain rfl := Option.some.inj ((hc.stamped e he k t' hadmits).symm.trans hread)
  refine List.mem_append.2 (hadmits.imp (fun h => ?_) fun h => ?_)
  · exact Traffic.mem_admissions.2 ⟨e, he, rfl, h⟩
  · exact Traffic.mem_admissions.2 ⟨e, he, rfl, h⟩

/-- **Limits across failover.** Checks come one after another, the clock does not step back, and the
remote store is switched off, slowed down and repaired at any time. Then of the checks that include
a window rule with a store key of its own, which is not forgotten or given up for another key, at
most twice the limit are allowed in any half-open interval of the length of the window, and at most
the limit if the same store has judged the rule throughout. -/
theorem allowed_le_of_failover (cfg : LimiterSettings) (ops : Nat → Option (Operation ν))
    (s : State ν (UnreliableStore ν)) (hhere : s.limiter.slots = .empty)
    (hafar : s.remote.slots = .empty) (key : String) (rule : Rule ν) (l : WindowLimit)
    (hk : Dedicated cfg ops (cfg.storeKey key rule.label) l)
    (ms : List (Move (Circumstances Switch)))
    (hms : RunsOrderly cfg ops (cfg.storeKey key rule.label)
      (Crowd.start s (calls cfg true ops)) ms)
    (start : Moment) (allowed : List Nat) (hnodup : allowed.Nodup)
    (hallowed : ∀ i ∈ allowed, ∃ t,
      Allowed ops ((Crowd.start s (calls cfg true ops)).play (setting cfg flaky) ms) key rule i t ∧
      start ≤ t ∧ t < start.later l.window) :
    allowed.length ≤ 2 * l.max ∧
      (SameStore (cfg.storeKey key rule.label)
        ((Crowd.start s (calls cfg true ops)).play (setting cfg flaky) ms).log →
        allowed.length ≤ l.max) := by
  have hc := accounted_play hhere hafar hk hms
  obtain ⟨c, hplay⟩ : ∃ c, (Crowd.start s (calls cfg true ops)).play (setting cfg flaky) ms = c :=
    ⟨_, rfl⟩
  rw [hplay] at hc hallowed ⊢
  obtain ⟨k, hkey⟩ : ∃ k, cfg.storeKey key rule.label = k := ⟨_, rfl⟩
  rw [hkey] at hc ⊢
  obtain ⟨hhere, hafar⟩ := hc.sparse
  have hcount : allowed.length ≤ (times admitsHere? k c.log).countP (fun t => start ≤ t ∧
      t < start.later l.window) +
      (times admitsAfar? k c.log).countP fun t => start ≤ t ∧ t < start.later l.window := by
    refine length_le_countP_add _ hnodup fun i hi => ?_
    obtain ⟨t, hi, hin⟩ := hallowed i hi
    exact ⟨t, hc.mem_admissions hkey hi, decide_eq_true hin⟩
  specialize hhere start
  specialize hafar start
  refine ⟨by omega, fun hsame => ?_⟩
  rcases hsame with hnone | hnone
  · have hnil : times admitsHere? k c.log = [] := by
      refine times_eq_nil fun e he t h => hnone e he ?_
      obtain ⟨a, o, hd⟩ := judge_of_admitsHere? h
      rw [hd]
      rfl
    rw [hnil, List.countP_nil, Nat.zero_add] at hcount
    exact Nat.le_trans hcount hafar
  · have hnil : times admitsAfar? k c.log = [] := by
      refine times_eq_nil fun e he t h => hnone e he ?_
      obtain ⟨a, o, hd⟩ := judge_of_admitsAfar? h
      rw [hd]
      rfl
    rw [hnil, List.countP_nil, Nat.add_zero] at hcount
    exact Nat.le_trans hcount hhere

/-! ### A run that reaches the limit of both stores -/

/-- The call that a program makes next. -/
def call? : Program (service ν) Operation.Result → Option (Request ν)
  | .call r _ => some r
  | _ => none

/-- Whether a move is one of an orderly run of the operations with numbers below `n`. -/
def orderly (cfg : LimiterSettings) (n : Nat) (k : String) (c : Rehearsal ν) :
    Move (Circumstances Switch) → Bool
  | .step who o =>
    ((List.range n).all fun i =>
        i == who || (Crowd.deeds i c.log).isEmpty || (c.tasks i).all Program.isDone) &&
      (c.log.all fun e => e.circumstances.now ≤ o.now) &&
      ((c.tasks who).bind call?).all fun r => givesUp? cfg o c.state r != some k
  | .drop _ => true

/-- Whether all moves are. -/
def runsOrderly (cfg : LimiterSettings) (n : Nat) (k : String) :
    Rehearsal ν → List (Move (Circumstances Switch)) → Bool
  | _, [] => true
  | c, mv :: ms => orderly cfg n k c mv && runsOrderly cfg n k (c.move (setting cfg flaky) mv) ms

omit [Amount ν] in
theorem Orderly.of_orderly {n : Nat} (hops : ∀ i, n ≤ i → ops i = none)
    (h : orderly cfg n k c (.step who o) = true) :
    Orderly cfg ops k c who o := by
  obtain ⟨hrest, hkept⟩ := Bool.and_eq_true_iff.1 h
  obtain ⟨hturn, hforward⟩ := Bool.and_eq_true_iff.1 hrest
  refine ⟨fun _ i hne hi => ?_, fun e he => ?_, fun r next ht => ?_⟩
  · obtain ⟨op, hop, -⟩ := hi
    have hlt : i < n := by
      refine Nat.lt_of_not_le fun hle => ?_
      rw [hops i hle] at hop
      cases hop
    have hi := List.all_eq_true.1 hturn i (List.mem_range.2 hlt)
    simp only [Bool.or_eq_true, beq_iff_eq, hne, false_or, List.isEmpty_iff] at hi
    refine hi.imp id fun hi q hq => ?_
    rw [hq] at hi
    exact hi
  · exact of_decide_eq_true (List.all_eq_true.1 hforward e he)
  · rw [ht] at hkept
    exact bne_iff_ne.1 hkept

theorem runsOrderly_of_runsOrderly {n : Nat} (hops : ∀ i, n ≤ i → ops i = none)
    {ms : List (Move (Circumstances Switch))} (h : runsOrderly cfg n k c ms = true) :
    RunsOrderly cfg ops k c ms := by
  induction ms generalizing c with
  | nil => trivial
  | cons mv ms ih =>
    obtain ⟨hmv, hms⟩ := Bool.and_eq_true_iff.1 h
    refine ⟨?_, ih hms⟩
    rintro who o rfl
    exact Orderly.of_orderly hops hmv

/-- Whether an operation has read the clock at `t` and returned a verdict that allows. -/
def allows (c : Rehearsal ν) (i : Nat) (t : Moment) : Bool :=
  ((Crowd.deeds i c.log).any fun d => reading? d == some t) &&
    match c.tasks i with
    | some (.done (.verdict (.ok v))) => v.allowed
    | _ => false

omit [Amount ν] in
theorem Allowed.of_allows {key : String} {rule : Rule ν}
    (hasked : ∃ op rules, ops i = some op ∧ op.check? = some (key, rules) ∧ rule ∈ rules)
    (h : allows c i t = true) :
    Allowed ops c key rule i t := by
  obtain ⟨hread, hverdict⟩ := Bool.and_eq_true_iff.1 h
  refine ⟨hasked, ?_, ?_⟩
  · obtain ⟨d, hd, hr⟩ := List.any_eq_true.1 hread
    replace hr : reading? d = some t := eq_of_beq hr
    unfold reading? at hr
    split at hr
    · cases hr
      exact hd
    · cases hr
  · split at hverdict
    · exact ⟨_, ‹_›, hverdict⟩
    · cases hverdict

end BothStores

/-- One request a minute. -/
def onceAMinute : Rule Rat := ⟨some "once", .window ⟨1, 60⟩⟩

/-- Two checks of it for one user. -/
def twoChecks : Nat → Option (Operation Rat)
  | 0 => some (.check "ann" [onceAMinute])
  | 1 => some (.check "ann" [onceAMinute])
  | _ => none

/-- The first check is answered by the remote store. Before the second one the store is switched
off. -/
def switchedOff : List (Move (Circumstances Switch)) :=
  List.replicate 8 (.step 0 ⟨.ofMillis 0, 0, ⟨none, none⟩⟩) ++
    List.replicate 9 (.step 1 ⟨.ofMillis 100, 100, ⟨some true, none⟩⟩)

/-- Each store admits one of the two checks. -/
theorem allowed_le_of_failover_switchedOff :
    let cfg : LimiterSettings := ⟨.standard, .standard⟩
    let k := cfg.storeKey "ann" onceAMinute.label
    let c : Rehearsal Rat := Crowd.start ⟨.initial, .initial⟩ (calls cfg true twoChecks)
    Dedicated cfg twoChecks k ⟨1, 60⟩ ∧ RunsOrderly cfg twoChecks k c switchedOff ∧
      (∀ i ∈ [0, 1], ∃ t, Allowed twoChecks (c.play (setting cfg flaky) switchedOff)
        "ann" onceAMinute i t ∧
        Moment.ofMillis 0 ≤ t ∧ t < (Moment.ofMillis 0).later (.ofSecs 60)) ∧
      [0, 1].length ≤ 2 * 1 := by
  intro cfg k c
  have hk : Dedicated cfg twoChecks k ⟨1, 60⟩ := by
    refine ⟨fun i op a hop hj => ?_, fun i key hop => ?_⟩
    · obtain ⟨key, rules, hcheck, rule, hmem, -, rfl⟩ := hj
      unfold twoChecks at hop
      split at hop
      all_goals
        cases hop
      all_goals
        cases hcheck
        obtain rfl := List.mem_singleton.1 hmem
        rfl
    · unfold twoChecks at hop
      split at hop
      all_goals cases hop
  have hms : RunsOrderly cfg twoChecks k c switchedOff := by
    refine runsOrderly_of_runsOrderly (n := 2) (fun i hi => ?_) (by decide)
    unfold twoChecks
    split
    · omega
    · omega
    · rfl
  have hallowed : ∀ i ∈ [0, 1], ∃ t,
      Allowed twoChecks (c.play (setting cfg flaky) switchedOff) "ann" onceAMinute i t ∧
      Moment.ofMillis 0 ≤ t ∧ t < (Moment.ofMillis 0).later (.ofSecs 60) := by
    intro i hi
    rcases List.mem_pair.1 hi with rfl | rfl
    · exact ⟨.ofMillis 0, .of_allows ⟨_, _, rfl, rfl, .head _⟩ (by decide), by decide⟩
    · exact ⟨.ofMillis 100, .of_allows ⟨_, _, rfl, rfl, .head _⟩ (by decide), by decide⟩
  exact ⟨hk, hms, hallowed,
    (allowed_le_of_failover cfg twoChecks ⟨.initial, .initial⟩ rfl rfl "ann" onceAMinute ⟨1, 60⟩
      hk switchedOff hms (.ofMillis 0) [0, 1] (by decide) hallowed).1⟩

end Traffic

end GuardedWrites

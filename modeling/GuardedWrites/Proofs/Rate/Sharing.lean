import GuardedWrites.Proofs.Rate.WithoutRemote
import GuardedWrites.Proofs.Rate.Naming
import GuardedWrites.Rate.Exact

/-!
# What keys share

Two keys have each their own quota as long as they clash under none of their labels. Then, if time
does not run back and nothing that means something is given up, one of them is answered as if there
were no calls for the other.

* `Slots.Shadows` — slots that hold what others hold that means something, but only under certain
  names;
* `Slots.Shadows.answer`, `Slots.Shadows.answer_beside` — calls that keep to the names are answered
  alike, and calls that keep off them change nothing;
* `Limiter.filter_transcript` — so a run can be cut down to the calls of a key;
* `Limiter.keys_are_independent_iff` — keys are independent exactly if they never clash.
-/

namespace GuardedWrites

namespace Slots

variable {ν : Type} {K : String → Prop} {t t' : Moment} {s s' : Slots ν} {name : String} {max : Nat}

/-- Under certain names the second slots hold what still means something in the first ones at `t`,
and they hold nothing under other names. -/
structure Shadows (K : String → Prop) (t : Moment) (s s' : Slots ν) : Prop where
  alike : ∀ name, K name → s.alive? name t = s'.alive? name t
  only : ∀ name, s'.table.has name = true → K name

namespace Shadows

theorem empty (K : String → Prop) (t : Moment) :
    Shadows K t (Slots.empty : Slots ν) Slots.empty := by
  refine ⟨fun _ _ => rfl, fun name h => ?_⟩
  rw [Table.has, Slots.empty, Table.get?_empty] at h
  cases h

theorem later (h : Shadows K t s s') (ht : t ≤ t') : Shadows K t' s s' :=
  ⟨fun name hname => alive?_mono (h.alike name hname) ht, h.only⟩

/-- What means something in the second slots does so in the first ones. -/
theorem has_dropExpired (h : Shadows K t s s') (hname : (s'.dropExpired t).table.has name = true) :
    (s.dropExpired t).table.has name = true := by
  have hK : K name := h.only name (Table.has_of_has_filter hname)
  show (s.alive? name t).isSome = true
  rw [h.alike name hK]
  exact hname

/-- If the first slots make room for a name without giving up another, so do the second. -/
theorem evictions_makeRoom (h : Shadows K t s s') (hmax : 0 < max) (hsize : s.size ≤ max)
    (hname : K name) (hnone : (s.makeRoom (.leastRecent max) name t).evictions = s.evictions) :
    (s'.makeRoom (.leastRecent max) name t).evictions = s'.evictions := by
  rw [evictions_makeRoom_iff hmax] at hnone ⊢
  by_cases hhas' : s'.table.has name = true
  · exact .inl hhas'
  right
  rcases hnone with hhas | hroom
  · -- what the first slots hold under the name is out of date, so among the rest a place is free
    have hdead : (s.dropExpired t).table.has name = false := by
      rw [← Bool.not_eq_true]
      intro hlive
      have halive : (s'.alive? name t).isSome = true := by
        rw [← h.alike name hname]
        exact hlive
      exact hhas' (has_of_alive? halive)
    have hlt : (s'.dropExpired t).size < s.size := by
      refine Nat.lt_of_le_of_lt (Table.size_le_of_has fun _ => h.has_dropExpired) ?_
      exact Table.size_lt_of_has (fun _ => Table.has_of_has_filter) hdead hhas
    omega
  · exact Nat.lt_of_le_of_lt (Table.size_le_of_has fun _ => h.has_dropExpired) hroom

section Requests

open Limiter (Call)

variable [Amount ν] {a : Algorithm ν} {cfg : LimiterSettings} {key : String}
variable {labels : String → Prop} {c : Call ν}

theorem status (h : Shadows K t s s') (hname : K name) (rule : Rule ν) :
    s'.status name rule t = s.status name rule t := by
  rw [status_eq, status_eq, slotFor_congr (h.alike name hname)]

theorem judge (h : Shadows K t s s') (hmax : 0 < max) (hsize : s.size ≤ max) (hname : K name)
    (hnone : (s.judge (.leastRecent max) name a t).2.evictions = s.evictions) :
    (s'.judge (.leastRecent max) name a t).1 = (s.judge (.leastRecent max) name a t).1 ∧
      Shadows K t (s.judge (.leastRecent max) name a t).2
        (s'.judge (.leastRecent max) name a t).2 := by
  have hnone' : (s'.judge (.leastRecent max) name a t).2.evictions = s'.evictions :=
    h.evictions_makeRoom hmax hsize hname hnone
  have hslot := slotFor_congr (h.alike name hname) a
  refine ⟨?_, fun x hx => ?_, fun x hx => ?_⟩
  · rw [judge_fst hnone, judge_fst hnone', hslot]
  · rw [alive?_judge hnone, alive?_judge hnone', hslot, h.alike x hx]
  · by_cases hne : name = x
    · exact hne ▸ hname
    · exact h.only x (has_of_has_judge hne hx)

theorem judge_beside {policy : EvictionPolicy} (h : Shadows K t s s') (hname : ¬ K name)
    (hnone : (s.judge policy name a t).2.evictions = s.evictions) :
    Shadows K t (s.judge policy name a t).2 s' := by
  refine ⟨fun x hx => ?_, h.only⟩
  have hne : name ≠ x := fun e => hname (e ▸ hx)
  rw [alive?_judge hnone, if_neg hne, h.alike x hx]

/-- A call that keeps to the names is answered alike. -/
theorem answer (h : Shadows K c.now s s') (hcfg : cfg.fault? = none)
    (hsize : s.size ≤ cfg.config.maxTrackedKeys) (hc : c.op.Concerns key labels)
    (hK : ∀ label, labels label → K (cfg.storeKey key label))
    (hnone : (s.answer cfg c).2.evictions = s.evictions) :
    (s'.answer cfg c).1 = (s.answer cfg c).1 ∧
    Shadows K c.now (s.answer cfg c).2 (s'.answer cfg c).2 := by
  have hmax := LimiterSettings.maxTrackedKeys_pos hcfg
  have hboth : (s'.answer cfg c).1 = (s.answer cfg c).1 ∧
      (Shadows K c.now (s.answer cfg c).2 (s'.answer cfg c).2 ∧
        (s.answer cfg c).2.size ≤ cfg.config.maxTrackedKeys) := by
    refine answer_alike
      (R := fun s s' => Shadows K c.now s s' ∧ s.size ≤ cfg.config.maxTrackedKeys) hc hK ?_
      (fun name rule hname => h.status hname rule) ⟨h, hsize⟩ (callMeets_of_evictions hnone)
    rintro s s' name a hname ⟨h, hsize⟩ hquiet
    obtain ⟨hfst, hsnd⟩ := h.judge hmax hsize hname hquiet
    exact ⟨hfst, hsnd, size_judge_le hmax hsize name a c.now⟩
  exact ⟨hboth.1, hboth.2.1⟩

/-- A call that keeps off the names changes nothing. -/
theorem answer_beside (h : Shadows K c.now s s') (hc : c.op.Concerns key labels)
    (hK : ∀ label, labels label → ¬ K (cfg.storeKey key label))
    (hnone : (s.answer cfg c).2.evictions = s.evictions) : Shadows K c.now (s.answer cfg c).2 s' :=
  answer_keeps (I := fun s => Shadows K c.now s s') hc hK (fun _ _ _ hname h hquiet =>
    h.judge_beside hname hquiet) h
    (callMeets_of_evictions hnone)

end Requests

end Shadows

end Slots

namespace Limiter

variable {ν : Type} [Amount ν] {cfg : LimiterSettings} {key key' label label' : String}
variable {labels labels' : String → Prop}

theorem Operation.Concerns.key?_eq {op : Operation ν} (h : op.Concerns key labels) :
    op.key? = some key := by
  cases op with
  | check k rules => exact congrArg some h.1
  | enforce k rules => exact congrArg some h.1
  | status k rules => exact congrArg some h.1
  | reset k => exact h.elim
  | probe => exact h.elim

/-- Whether a call is one of a key. -/
def Call.isOf (key : String) (c : Call ν) : Bool := c.op.key? = some key

/-- A run in which nothing is given up can be cut down to the calls of one key, if the calls of the
other keep off its slots. -/
theorem filter_transcript (hcfg : cfg.fault? = none) {K : String → Prop}
    (hK : ∀ label, labels label → K (cfg.storeKey key label))
    (hK' : ∀ label, labels' label → ¬ K (cfg.storeKey key' label)) {calls : List (Call ν)}
    (hcalls : ∀ c ∈ calls, key' ≠ key ∧ c.op.Concerns key' labels' ∨ c.op.Concerns key labels)
    (htimes : (calls.map Call.now).Pairwise (· ≤ ·)) {s s' : State ν}
    (h : ∀ c ∈ calls, s.slots.Shadows K c.now s'.slots)
    (hsize : s.slots.size ≤ cfg.config.maxTrackedKeys)
    (hnone : (after cfg s calls).slots.evictions = s.slots.evictions) :
    (transcript cfg s calls).filter (fun e => e.1.isOf key) =
      transcript cfg s' (calls.filter (Call.isOf key)) := by
  -- the states are those of the two runs, and at each call the second shadows the first
  induction calls generalizing s s' with
  | nil => rfl
  | cons c rest ih =>
    obtain ⟨hle, hrest⟩ := List.pairwise_cons.1 htimes
    obtain ⟨hfirst, hlater⟩ := evictions_after_cons hnone
    have hsize' : (serve cfg s c).2.slots.size ≤ cfg.config.maxTrackedKeys :=
        size_after_le hcfg hsize [c]
    have htail : ∀ s', (serve cfg s c).2.slots.Shadows K c.now s'.slots →
        (transcript cfg (serve cfg s c).2 rest).filter (fun e => e.1.isOf key) =
          transcript cfg s' (rest.filter (Call.isOf key)) := by
      intro s' hs'
      refine ih (fun d hd => hcalls d (.tail _ hd)) hrest (fun d hd => ?_) hsize' hlater
      exact hs'.later (hle d.now (List.mem_map_of_mem hd))
    rcases hcalls c (.head _) with ⟨hne, hc⟩ | hc
    · have hkey : c.isOf key = false := by
        rw [Call.isOf, hc.key?_eq]
        exact decide_eq_false fun e => hne (Option.some.inj e)
      have hbeside : (serve cfg s c).2.slots.Shadows K c.now s'.slots := by
        rw [slots_serve]
        exact (h c (.head _)).answer_beside hc hK' hfirst
      simp only [transcript, List.filter_cons, hkey, Bool.false_eq_true, if_false]
      exact htail s' hbeside
    · have hkey : c.isOf key = true := decide_eq_true hc.key?_eq
      obtain ⟨hfst, hsnd⟩ := (h c (.head _)).answer hcfg hsize hc hK hfirst
      have hboth : (serve cfg s c).2.slots.Shadows K c.now (serve cfg s' c).2.slots := by
        rw [slots_serve, slots_serve]
        exact hsnd
      have hanswer : (serve cfg s' c).1 = (serve cfg s c).1 := by rw [serve_fst, serve_fst, hfst]
      simp only [transcript, List.filter_cons, hkey, if_true, hanswer]
      exact congrArg _ (htail _ hboth)

/-! ### Shared slots -/

/-- One request a minute. -/
def onceAMinute (label : String) : Rule ν := ⟨some label, .window ⟨1, 60⟩⟩

/-- A request under a key. -/
def Call.once (key label : String) : Call ν := ⟨.check key [onceAMinute label], .epoch⟩

/-- A look at what is left of it. -/
def Call.look (key label : String) : Call ν := ⟨.status key [onceAMinute label], .epoch⟩

theorem Call.concerns_once (h : labels label) :
    (Call.once key label : Call ν).op.Concerns key labels :=
  ⟨rfl, fun rule hrule => by rw [List.mem_singleton.1 hrule]; exact h⟩

theorem Call.concerns_look (h : labels label) :
    (Call.look key label : Call ν).op.Concerns key labels :=
  ⟨rfl, fun rule hrule => by rw [List.mem_singleton.1 hrule]; exact h⟩

theorem slots_serve_once (cfg : LimiterSettings) (s : State ν) (key label : String) :
    (serve cfg s (.once key label)).2.slots =
      (s.slots.judgeRule cfg key (onceAMinute label) .epoch).2 := by
  have hanswer : (s.slots.answer cfg (.once key label)).2 =
      (s.slots.judgeAll cfg key .epoch countLimit [onceAMinute label]).2 := rfl
  rw [slots_serve, hanswer]
  by_cases hallowed : (s.slots.judgeRule cfg key (onceAMinute label) .epoch).1.allowed = true
  · rw [Slots.judgeAll_of_allowed hallowed]
    rfl
  · rw [Slots.judgeAll_of_denied hallowed]

theorem serve_look (cfg : LimiterSettings) (s : State ν) (key label : String) :
    (serve cfg s (.look key label)).1 =
      some (.report (.ok
        ⟨key, [s.slots.status (cfg.storeKey key label) (onceAMinute label) .epoch], .here⟩)) :=
  serve_fst cfg s (.look key label)

/-- After one request its slot is spent, and no other. -/
theorem remaining_once {max : Nat} (hmax : 0 < max) (name name' label label' : String) :
    (((Slots.empty : Slots ν).judge (.leastRecent max) name
      (onceAMinute label).algorithm .epoch).2.status name'
      (onceAMinute label') .epoch).remaining = if name = name' then 0 else 1 := by
  rw [Slots.status_eq, Slots.slotFor_eq, Slots.alive?_eq, Slots.get?_judge,
    Slots.makeRoom_empty hmax]
  by_cases h : name = name'
  · rw [if_pos h, if_pos h]
    rfl
  · rw [if_neg h, if_neg h]
    rfl

/-- A look under one key sees a request under the other if the names are the same. -/
theorem look_sees_once (hcfg : cfg.fault? = none)
    (heq : cfg.storeKey key' label' = cfg.storeKey key label) :
    (serve cfg (serve cfg (.initial : State ν) (.once key' label')).2 (.look key label)).1 ≠
      (serve cfg (.initial : State ν) (.look key label)).1 := by
  intro hsame
  rw [serve_look, serve_look, slots_serve_once] at hsame
  simp only [Option.some.injEq, Operation.Result.report.injEq, Except.ok.injEq,
    StatusReport.mk.injEq, List.cons.injEq, true_and, and_true] at hsame
  have hspent := remaining_once (ν := ν) (LimiterSettings.maxTrackedKeys_pos hcfg)
    (cfg.storeKey key' label') (cfg.storeKey key label) label' label
  rw [if_pos heq] at hspent
  have hfree :
      ((State.initial : State ν).slots.status (cfg.storeKey key label)
        (onceAMinute label) .epoch).remaining = 1 :=
    rfl
  rw [← hsame] at hfree
  exact absurd (hspent.symm.trans hfree) (by decide)

/-- **When keys do not share quota.** Two keys clash under none of their labels exactly if each run,
as long as time does not run back and nothing is given up, answers one of them as if there were no
calls for the other. -/
theorem keys_are_independent_iff (cfg : LimiterSettings) (hcfg : cfg.fault? = none)
    {key' key : String} (hne : key' ≠ key) (labels' labels : String → Prop) :
    (∀ label' label, labels' label' → labels label → ¬ Clash key' label' key label) ↔
      ∀ calls : List (Call ν),
        (∀ c ∈ calls, c.op.Concerns key' labels' ∨ c.op.Concerns key labels) →
        (calls.map Call.now).Pairwise (· ≤ ·) → (after cfg .initial calls).slots.evictions = 0 →
        (transcript cfg .initial calls).filter (fun e => e.1.isOf key) =
          transcript cfg .initial (calls.filter (Call.isOf key)) := by
  constructor
  · intro hdisjoint calls hcalls htimes hnone
    refine filter_transcript hcfg
      (K := fun name => ∃ label, labels label ∧ name = cfg.storeKey key label)
      (fun label hl => ⟨label, hl, rfl⟩) ?_
      (fun c hc => (hcalls c hc).imp_left fun h => ⟨hne, h⟩) htimes
      (fun c _ => Slots.Shadows.empty _ _) (Nat.zero_le _) hnone
    rintro label' hl' ⟨label, hl, heq⟩
    exact hdisjoint label' label hl' hl ((LimiterSettings.storeKey_eq_iff hne).1 heq)
  · -- a request under the one key, and a look under the other
    intro hindependent label' label hl' hl hclash
    let calls : List (Call ν) := [.once key' label', .look key label]
    have hcalls : ∀ c ∈ calls, c.op.Concerns key' labels' ∨ c.op.Concerns key labels := by
      intro c hc
      rcases List.mem_pair.1 hc with rfl | rfl
      · exact .inl (Call.concerns_once hl')
      · exact .inr (Call.concerns_look hl)
    have htimes : (calls.map Call.now).Pairwise (· ≤ ·) := by
      show [Moment.epoch, Moment.epoch].Pairwise (· ≤ ·)
      decide
    have hnone : (after cfg .initial calls).slots.evictions = 0 := by
      show (serve cfg (serve cfg .initial (.once key' label')).2
        (.look key label)).2.slots.evictions = 0
      rw [slots_serve]
      show (serve cfg .initial (.once key' label')).2.slots.evictions = 0
      rw [slots_serve_once]
      exact congrArg Slots.evictions
        (Slots.makeRoom_empty (LimiterSettings.maxTrackedKeys_pos hcfg) _ _)
    have hof : (Call.once key' label' : Call ν).isOf key = false :=
        decide_eq_false fun e => hne (Option.some.inj e)
    have hof' : (Call.look key label : Call ν).isOf key = true := decide_eq_true rfl
    have hruns := hindependent calls hcalls htimes hnone
    simp only [calls, transcript, List.filter_cons, List.filter_nil, hof, hof', if_true,
      Bool.false_eq_true, if_false, List.cons.injEq, Prod.mk.injEq, true_and, and_true] at hruns
    exact look_sees_once hcfg ((LimiterSettings.storeKey_eq_iff hne).2 hclash) hruns

/-- Requests under two keys that begin alike, one of them a second time. -/
def neighbours : List (Call Rat) :=
  [.once "guest:4" "minute", .once "guest:42" "minute", .once "guest:4" "minute"]

theorem keys_are_independent_iff_neighbours :
    usual.fault? = none ∧ "guest:4" ≠ "guest:42" ∧
      (∀ label' label, label' = "minute" → label = "minute" →
        ¬ Clash "guest:4" label' "guest:42" label) ∧
      (transcript usual .initial neighbours).filter (fun e => e.1.isOf "guest:42") =
        transcript usual .initial [.once "guest:42" "minute"] := by
  have hne : "guest:4" ≠ "guest:42" := by decide
  have hdisjoint : ∀ label' label, label' = "minute" → label = "minute" →
      ¬ Clash "guest:4" label' "guest:42" label := by
    rintro _ _ rfl rfl
    have hnames : usual.storeKey "guest:4" "minute" ≠ usual.storeKey "guest:42" "minute" := by
      decide
    exact mt (LimiterSettings.storeKey_eq_iff hne).2 hnames
  refine ⟨rfl, hne, hdisjoint, ?_⟩
  refine (keys_are_independent_iff usual rfl hne (· = "minute") (· = "minute")).1 hdisjoint
    neighbours ?_ (by decide)
    (by decide)
  intro c hc
  simp only [neighbours, List.mem_cons, List.not_mem_nil, or_false] at hc
  rcases hc with rfl | rfl | rfl
  · exact .inl (Call.concerns_once rfl)
  · exact .inr (Call.concerns_once rfl)
  · exact .inl (Call.concerns_once rfl)

/-- A request under a key, and one under a key that goes on behind a colon. The label of the first
makes up for it. -/
def namesakes : List (Call Rat) := [.once "guest" "42:minute", .once "guest:42" "minute"]

/-- The one request that a key has a minute is spent by a request under another key. -/
theorem longer_key_shares_quota :
    usual.fault? = none ∧ "guest" ≠ "guest:42" ∧
      (∀ c ∈ namesakes, c.op.Concerns "guest" (fun _ => True) ∨
        c.op.Concerns "guest:42" fun _ => True) ∧
      (namesakes.map Call.now).Pairwise (· ≤ ·) ∧
      (after usual .initial namesakes).slots.evictions = 0 ∧
      ((transcript usual .initial namesakes).filter fun e => e.1.isOf "guest:42").map
        (fun e => e.2.bind Operation.Result.allowed?) = [some false] ∧
      (transcript usual .initial (namesakes.filter (Call.isOf "guest:42"))).map
        (fun e => e.2.bind Operation.Result.allowed?) = [some true] := by
  refine ⟨rfl, by decide, fun c hc => ?_, by decide, by decide, by decide, by decide⟩
  rcases List.mem_pair.1 hc with rfl | rfl
  · exact .inl (Call.concerns_once trivial)
  · exact .inr (Call.concerns_once trivial)

end Limiter

end GuardedWrites

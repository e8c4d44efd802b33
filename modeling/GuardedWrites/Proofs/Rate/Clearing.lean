import GuardedWrites.Proofs.Rate.Sharing

/-!
# What a reset clears

A reset of a key drops every slot whose name begins as the names of the key do, and leaves all other
slots alone. A key whose slots have no such name does not feel it, unless room runs short: what a
reset has dropped need not be given up.

* `Slots.Keeps` — slots that agree with others under certain names and hold nothing else;
* `Limiter.Steady` — calls that do not depend on what other keys hold;
* `Limiter.transcript_of_keeps` — such calls are answered alike;
* `Limiter.reset_clears_only_iff` — a reset clears nothing of another key exactly if the keys never
  clash.
-/

namespace GuardedWrites

namespace Slots

open Limiter (Call)

variable {ν : Type} {K : String → Prop} {s s' : Slots ν} {name : String}

/-- Under certain names both slots hold the same, and the second ones hold nothing under other
names. -/
structure Keeps (K : String → Prop) (s s' : Slots ν) : Prop where
  same : ∀ name, K name → s.table.get? name = s'.table.get? name
  only : ∀ name, s'.table.has name = true → K name

/-- A name is there, or there is a free place for it. -/
def Free (cfg : LimiterSettings) (s : Slots ν) (name : String) : Prop :=
  s.table.has name = true ∨ s.size < cfg.config.maxTrackedKeys

theorem makeRoom_of_free {cfg : LimiterSettings} (h : s.Free cfg name) (now : Moment) :
    s.makeRoom cfg.policy name now = s := by
  unfold makeRoom
  refine if_pos ((Bool.or_eq_true _ _).mpr (h.imp_right fun hsize => ?_))
  have hroom : cfg.policy.shouldEvict s.size = false := decide_eq_false (Nat.not_le.2 hsize)
  rw [hroom]
  rfl

section Requests

variable [Amount ν] {cfg : LimiterSettings} {key : String} {labels : String → Prop} {c : Call ν}

theorem evictions_judge_of_free (h : s.Free cfg name) (a : Algorithm ν) (now : Moment) :
    (s.judge cfg.policy name a now).2.evictions = s.evictions := by
  show (s.makeRoom cfg.policy name now).evictions = s.evictions
  rw [makeRoom_of_free h]

/-- No room has to be made for a call. -/
def FreeFor (cfg : LimiterSettings) (s : Slots ν) (c : Call ν) : Prop :=
  s.CallMeets cfg (fun s name _ => s.Free cfg name) c

namespace Keeps

omit [Amount ν] in
theorem removeStarting (s : Slots ν) (start : String) :
    Keeps (fun name => startsWith start name = false) s (s.removeStarting start).2 := by
  refine ⟨fun name hname => ?_, fun name hhas => ?_⟩
  · rw [get?_removeStarting, hname]
    rfl
  · rw [← Bool.not_eq_true]
    intro hstart
    rw [Table.has, get?_removeStarting, if_pos hstart] at hhas
    cases hhas

omit [Amount ν] in
theorem shadows (h : Keeps K s s') (t : Moment) : Shadows K t s s' :=
  ⟨fun name hname => alive?_congr (h.same name hname) t, h.only⟩

omit [Amount ν] in
/-- What finds a place in the first slots finds one in the second. -/
theorem free (h : Keeps K s s') (hname : K name) (hfree : s.Free cfg name) : s'.Free cfg name := by
  refine hfree.imp (fun hhas => ?_) fun hsize => ?_
  · rw [Table.has, ← h.same name hname]
    exact hhas
  · refine Nat.lt_of_le_of_lt (Table.size_le_of_has fun x hx => ?_) hsize
    rw [Table.has, h.same x (h.only x hx)]
    exact hx

theorem judge (h : Keeps K s s') (hname : K name) (hfree : s.Free cfg name) (a : Algorithm ν)
    (now : Moment) :
    (s'.judge cfg.policy name a now).1 = (s.judge cfg.policy name a now).1 ∧
      Keeps K (s.judge cfg.policy name a now).2 (s'.judge cfg.policy name a now).2 := by
  have hfree' := h.free hname hfree
  have hslot := slotFor_congr (alive?_congr (h.same name hname) now) a
  refine ⟨?_, fun x hx => ?_, fun x hx => ?_⟩
  · rw [judge_fst (evictions_judge_of_free hfree a now),
      judge_fst (evictions_judge_of_free hfree' a now), hslot]
  · rw [get?_judge, get?_judge, makeRoom_of_free hfree now, makeRoom_of_free hfree' now,
      hslot, h.same x hx]
  · by_cases hne : name = x
    · exact hne ▸ hname
    · exact h.only x (has_of_has_judge hne hx)

/-- A call that keeps to the names and for which no room is made is answered alike. -/
theorem answer (h : Keeps K s s') (hc : c.op.Concerns key labels)
    (hK : ∀ label, labels label → K (cfg.storeKey key label)) (hfree : s.FreeFor cfg c) :
    (s'.answer cfg c).1 = (s.answer cfg c).1 ∧ Keeps K (s.answer cfg c).2 (s'.answer cfg c).2 :=
  answer_alike hc hK (fun _ _ _ a hname h hfree => h.judge hname hfree a c.now)
    (fun _ rule hname => (h.shadows c.now).status hname rule) h hfree

end Keeps

end Requests

end Slots

namespace Limiter

variable {ν : Type} [Amount ν] {cfg : LimiterSettings} {key key' : String} {labels : String → Prop}

theorem map_fst_transcript (cfg : LimiterSettings) (s : State ν) (calls : List (Call ν)) :
    (transcript cfg s calls).map Prod.fst = calls := by
  induction calls generalizing s with
  | nil => rfl
  | cons c rest ih => exact congrArg (c :: ·) (ih _)

/-- Calls that do not depend on what other keys hold: no room has to be made for them, whatever the
clock says, until from one of them on time does not run back and nothing is given up. -/
def Steady (cfg : LimiterSettings) : State ν → List (Call ν) → Prop
  | _, [] => True
  | s, c :: rest =>
    s.slots.FreeFor cfg c ∧ Steady cfg (serve cfg s c).2 rest ∨
      ((c :: rest).map Call.now).Pairwise (· ≤ ·) ∧
      (after cfg s (c :: rest)).slots.evictions = s.slots.evictions

/-- A run that gives up nothing is answered alike by slots that shadow those it began with. -/
theorem transcript_of_shadows (hcfg : cfg.fault? = none) {K : String → Prop}
    (hK : ∀ label, labels label → K (cfg.storeKey key label)) {calls : List (Call ν)}
    (hcalls : ∀ c ∈ calls, c.op.Concerns key labels)
    (htimes : (calls.map Call.now).Pairwise (· ≤ ·)) {s s' : State ν}
    (h : ∀ c ∈ calls, s.slots.Shadows K c.now s'.slots)
    (hsize : s.slots.size ≤ cfg.config.maxTrackedKeys)
    (hnone : (after cfg s calls).slots.evictions = s.slots.evictions) :
    transcript cfg s' calls = transcript cfg s calls := by
  have hall : calls.filter (Call.isOf key) = calls :=
    List.filter_eq_self.2 fun c hc => decide_eq_true (hcalls c hc).key?_eq
  have hrun : (transcript cfg s calls).filter (fun e => e.1.isOf key) = transcript cfg s calls := by
    refine List.filter_eq_self.2 fun e he => decide_eq_true (hcalls e.1 ?_).key?_eq
    rw [← map_fst_transcript cfg s calls]
    exact List.mem_map_of_mem he
  -- there are no calls but those of the key
  have hoff : ∀ label, (fun _ : String => False) label → ¬ K (cfg.storeKey key label) :=
      fun _ h => h.elim
  have hcut := filter_transcript hcfg hK hoff (fun c hc => .inr (hcalls c hc)) htimes h hsize hnone
  rw [hrun, hall] at hcut
  exact hcut.symm

/-- Steady calls of a key are answered alike by slots that hold the same for it. -/
theorem transcript_of_keeps (hcfg : cfg.fault? = none) {K : String → Prop}
    (hK : ∀ label, labels label → K (cfg.storeKey key label)) {calls : List (Call ν)}
    (hcalls : ∀ c ∈ calls, c.op.Concerns key labels) {s s' : State ν} (h : s.slots.Keeps K s'.slots)
    (hsize : s.slots.size ≤ cfg.config.maxTrackedKeys) (hsteady : Steady cfg s calls) :
    transcript cfg s' calls = transcript cfg s calls := by
  induction calls generalizing s s' with
  | nil => rfl
  | cons c rest ih =>
    rcases hsteady with ⟨hfree, hrest⟩ | ⟨htimes, hnone⟩
    · obtain ⟨hfst, hsnd⟩ := h.answer (hcalls c (.head _)) hK hfree
      have hanswer : (serve cfg s' c).1 = (serve cfg s c).1 := by rw [serve_fst, serve_fst, hfst]
      have hkeeps : (serve cfg s c).2.slots.Keeps K (serve cfg s' c).2.slots := by
        rw [slots_serve, slots_serve]
        exact hsnd
      rw [transcript, transcript, hanswer]
      exact congrArg _ (ih (fun d hd => hcalls d (.tail _ hd)) hkeeps
        (size_after_le hcfg hsize [c]) hrest)
    · exact transcript_of_shadows hcfg hK hcalls htimes (fun d _ => h.shadows d.now) hsize hnone

theorem slots_serve_reset (cfg : LimiterSettings) (s : State ν) (key : String) (now : Moment) :
    (serve cfg s ⟨.reset key, now⟩).2.slots = (s.slots.removeStarting (cfg.storeStart key)).2 :=
  slots_serve cfg s ⟨.reset key, now⟩

/-- **What a reset clears.** Whatever a limiter has served before, a reset of one key leaves every
slot of another key, under some labels, as it is, and steady calls of that key are answered as they
would have been without the reset. This holds exactly if the keys do not clash under any label of
the first and these of the second. -/
theorem reset_clears_only_iff (cfg : LimiterSettings) (hcfg : cfg.fault? = none) {key' key : String}
    (hne : key' ≠ key) (labels : String → Prop) :
    (∀ label' label, labels label → ¬ Clash key' label' key label) ↔
      ∀ (earlier : List (Call ν)) (now : Moment),
        let s := after cfg .initial earlier
        let s' := (serve cfg s ⟨.reset key', now⟩).2
        (∀ label, labels label →
          s'.slots.table.get? (cfg.storeKey key label) =
            s.slots.table.get? (cfg.storeKey key label)) ∧
        ∀ later, (∀ c ∈ later, c.op.Concerns key labels) → Steady cfg s later →
          transcript cfg s' later = transcript cfg s later := by
  constructor
  · intro hdisjoint earlier now s s'
    have hspared : ∀ label, labels label →
        Slots.startsWith (cfg.storeStart key') (cfg.storeKey key label) = false := by
      intro label hl
      rw [← Bool.not_eq_true, LimiterSettings.startsWith_storeStart]
      rintro ⟨label', heq⟩
      exact hdisjoint label' label hl ((LimiterSettings.storeKey_eq_iff hne).1 heq.symm)
    have hkeeps :
        s.slots.Keeps (fun name => Slots.startsWith (cfg.storeStart key') name = false)
          s'.slots := by
      rw [slots_serve_reset]
      exact Slots.Keeps.removeStarting _ _
    have hsize : s.slots.size ≤ cfg.config.maxTrackedKeys :=
        size_after_le hcfg (Nat.zero_le _) earlier
    refine ⟨fun label hl => (hkeeps.same _ (hspared label hl)).symm, fun later hlater hsteady => ?_⟩
    exact transcript_of_keeps hcfg hspared hlater hkeeps hsize hsteady
  · -- the slot is there after one request, and the reset drops it
    intro hclears label' label hl hclash
    obtain ⟨hsame, -⟩ := hclears [.once key label] .epoch
    have hslot := hsame label hl
    have hstart : Slots.startsWith (cfg.storeStart key') (cfg.storeKey key label) = true :=
      LimiterSettings.startsWith_storeStart.2 ⟨label',
        ((LimiterSettings.storeKey_eq_iff hne).2 hclash).symm⟩
    rw [slots_serve_reset, Slots.get?_removeStarting, if_pos hstart] at hslot
    have honce : (after cfg (.initial : State ν) [.once key label]).slots =
        (Slots.empty.judgeRule cfg key (onceAMinute label) .epoch).2 :=
          slots_serve_once cfg .initial key label
    have hhas : ((Slots.empty : Slots ν).judgeRule cfg key (onceAMinute label) .epoch).2.table.has
        (cfg.storeKey key label) = true := Slots.has_judge_self _ _ _ _ _
    rw [Table.has, ← honce, ← hslot] at hhas
    cases hhas

/-- Two more requests, while the clock steps back. -/
def backwards : List (Call Rat) :=
  [⟨.check "guest:42" [onceAMinute "minute"], .ofMillis 65000⟩,
    ⟨.check "guest:42" [onceAMinute "minute"], .ofMillis 61000⟩]

/-- A reset of a key that another begins with, without a colon behind it, is not felt. -/
theorem reset_clears_only_iff_neighbours :
    let s := after usual .initial neighbours
    usual.fault? = none ∧ "guest:4" ≠ "guest:42" ∧
      (∀ label' label, label = "minute" → ¬ Clash "guest:4" label' "guest:42" label) ∧
      (∀ c ∈ backwards, c.op.Concerns "guest:42" (· = "minute")) ∧ Steady usual s backwards ∧
      transcript usual (serve usual s ⟨.reset "guest:4", .epoch⟩).2 backwards =
        transcript usual s backwards := by
  intro s
  have hne : "guest:4" ≠ "guest:42" := by decide
  have hdisjoint : ∀ label' label, label = "minute" →
      ¬ Clash "guest:4" label' "guest:42" label := by
    rintro label' _ rfl hclash
    have heq : usual.storeKey "guest:4" label' = usual.storeKey "guest:42" "minute" :=
      (LimiterSettings.storeKey_eq_iff hne).2 hclash
    exact absurd (LimiterSettings.startsWith_storeStart.2 ⟨label', heq.symm⟩) (by decide)
  have hcalls : ∀ c ∈ backwards, c.op.Concerns "guest:42" (· = "minute") := by
    intro c hc
    rcases List.mem_pair.1 hc with rfl | rfl
    · exact Call.concerns_once rfl
    · exact Call.concerns_once rfl
  -- the slot is there before either request, so neither has to make room
  have hsteady : Steady usual s backwards := by
    refine .inl ⟨fun key rules hcheck _ => ?_, .inl ⟨fun key rules hcheck _ => ?_, trivial⟩⟩
    · cases hcheck
      exact ⟨.inl (by decide), fun _ => trivial⟩
    · cases hcheck
      exact ⟨.inl (by decide), fun _ => trivial⟩
  have hclears := (reset_clears_only_iff usual rfl hne (· = "minute")).1 hdisjoint neighbours .epoch
  exact ⟨rfl, hne, hdisjoint, hcalls, hsteady, hclears.2 backwards hcalls hsteady⟩

/-- Without steadiness the room counts that a reset makes: what has been dropped need not be given
up. -/
example :
    let cfg : LimiterSettings := ⟨{ LimiterConfig.standard with maxTrackedKeys := 2 }, .standard⟩
    let s := after cfg (.initial : State Rat) [.once "bob" "minute", .once "ann" "minute"]
    let later := [Call.once "bob" "login", .once "bob" "minute"]
    (transcript cfg s later).map (fun e => e.2.bind Operation.Result.allowed?) =
      [some true, some true] ∧
      (transcript cfg (serve cfg s ⟨.reset "ann", .epoch⟩).2 later).map
          (fun e => e.2.bind Operation.Result.allowed?) =
        [some true, some false] := by
  decide

/-- The one request that a key has a minute is there again after a reset of another key. -/
theorem reset_clears_longer_key :
    let s := after usual (.initial : State Rat) [.once "guest:42" "minute"]
    let s' := (serve usual s ⟨.reset "guest", .epoch⟩).2
    usual.fault? = none ∧ "guest" ≠ "guest:42" ∧
      (s.slots.table.has (usual.storeKey "guest:42" "minute") = true ∧
        s'.slots.table.has (usual.storeKey "guest:42" "minute") = false) ∧
      (transcript usual s [.once "guest:42" "minute"]).map (fun e =>
        e.2.bind Operation.Result.allowed?) = [some false] ∧
      (transcript usual s' [.once "guest:42" "minute"]).map (fun e =>
        e.2.bind Operation.Result.allowed?) = [some true] := by
  decide

end Limiter

end GuardedWrites

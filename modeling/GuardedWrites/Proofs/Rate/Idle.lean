import GuardedWrites.Proofs.Rate.Admission
import GuardedWrites.Rate.Exact
import GuardedWrites.Rate.Slots

/-!
# Slots come and go unseen

Slots drop the state of a rule that nobody has asked about for a whole window: when the key is asked
about again, or when another key needs room. A window loses nothing by that, for all that it held is
too old to count.

* `Slots.victim?` — the key that is given up although it still means something;
* `Slots.Tracks` — the slots stand for a window that is never dropped; one lemma for each request;
* `Slots.transcript`, `Window.transcript` — requests with their answers, by slots and by a bare
  window;
* `Slots.transcript_eq_window` — of the requests of one key both answer alike.
-/

namespace GuardedWrites

namespace Slots

variable {ν : Type} {s : Slots ν} {policy : EvictionPolicy} {k key : String} {now t t' : Moment}

/-- The key that is given up for `key`, if the slots are full and still are without what is out of
date. -/
def victim? (s : Slots ν) (policy : EvictionPolicy) (key : String) (now : Moment) : Option String :=
  if s.table.has key || !policy.shouldEvict s.size then none
  else if policy.shouldEvict (s.dropExpired now).size
    then policy.victim? (s.dropExpired now).candidates
  else none

theorem victim?_of_has (h : s.table.has key = true) : s.victim? policy key now = none := by
  simp [victim?, h]

theorem get?_dropExpired (s : Slots ν) (now : Moment) (k : String) :
    (s.dropExpired now).table.get? k = (s.table.get? k).filter fun slot => !slot.isExpired now :=
  s.table.get?_filter _ k

theorem get?_removeStarting (s : Slots ν) (start name : String) :
    (s.removeStarting start).2.table.get? name = if startsWith start name then none
      else s.table.get? name := by
  show (s.table.filter fun k _ => !startsWith start k).get? name = _
  rw [Table.get?_filter]
  cases startsWith start name <;> cases s.table.get? name <;> rfl

/-- Giving up one key leaves the slots of the others. -/
theorem get?_evictOne (hv : s.table.has k = true → policy.victim? s.candidates ≠ some k) :
    (s.evictOne policy).table.get? k = s.table.get? k := by
  unfold evictOne
  split
  · rename_i v hc
    by_cases hhas : s.table.has v = true
    · have hne : v ≠ k := by
        rintro rfl
        exact hv hhas hc
      rw [if_pos hhas, Table.get?_erase, if_neg hne]
    · rw [if_neg hhas]
  · rfl

/-- Making room leaves the slot of a key that is not given up, or drops it because it is out of
date. -/
theorem get?_makeRoom_cases (hv : s.table.has k = true → s.victim? policy key now ≠ some k) :
    (s.makeRoom policy key now).table.get? k = s.table.get? k ∨
      (s.makeRoom policy key now).table.get? k = none ∧
        ∃ slot, s.table.get? k = some slot ∧ slot.isExpired now = true := by
  by_cases hroom : (s.table.has key || !policy.shouldEvict s.size) = true
  · left
    simp only [makeRoom, hroom, if_true]
  have hlive : (s.makeRoom policy key now).table.get? k = (s.dropExpired now).table.get? k := by
    simp only [makeRoom, victim?, hroom] at hv ⊢
    by_cases hfull : policy.shouldEvict (s.dropExpired now).size = true
    · simp only [hfull, if_true] at hv ⊢
      refine get?_evictOne fun hhas => hv ?_
      rw [Table.has, get?_dropExpired] at hhas
      cases hs : s.table.get? k with
      | none => simp [hs] at hhas
      | some slot => simp [Table.has, hs]
    · simp [hfull]
  rw [hlive, get?_dropExpired]
  cases hs : s.table.get? k with
  | none => exact .inl rfl
  | some slot =>
    cases he : slot.isExpired now with
    | false => exact .inl (by simp [he])
    | true => exact .inr ⟨by simp [he], slot, rfl, he⟩

/-! ### A window that is never dropped -/

/-- From `t` on the slots stand for a window of limit `l` under `k` that nobody ever drops. -/
inductive Tracks (k : String) (l : WindowLimit) (s : Slots ν) (w : Window) (t : Moment) : Prop
  /-- There is no slot, and nothing in the window counts any more. -/
  | gone (absent : s.table.get? k = none) (old : ∀ a ∈ w.entries, l.window ≤ a.elapsed t)
  /-- The slot holds the window, and was used when the window last admitted something or later. -/
  | kept (slot : Slot ν) (present : s.table.get? k = some slot) (state : slot.state = .window w)
      (ttl : slot.ttl = l.window) (used : ∀ a ∈ w.entries, a ≤ slot.lastAccess)

variable {l : WindowLimit} {w : Window}

theorem live_eq_nil (old : ∀ a ∈ w.entries, l.window ≤ a.elapsed t) (ht : t ≤ now) :
    w.live l.window now = [] := by
  refine List.filter_eq_nil_iff.2 fun a ha => ?_
  have hle : l.window ≤ a.elapsed now :=
    Span.le_trans (old a ha) (Moment.elapsed_le_elapsed (Moment.le_refl a) ht)
  simpa using Span.not_lt.2 hle

/-- What was used before a slot was is out of date when the slot is. -/
theorem old_of_isExpired {slot : Slot ν} (ttl : slot.ttl = l.window)
    (used : ∀ a ∈ w.entries, a ≤ slot.lastAccess) (he : slot.isExpired now = true) :
    ∀ a ∈ w.entries, l.window ≤ a.elapsed now := by
  intro a ha
  have hle : slot.ttl ≤ slot.lastAccess.elapsed now := of_decide_eq_true he
  rw [ttl] at hle
  exact Span.le_trans hle (Moment.elapsed_le_elapsed (used a ha) (Moment.le_refl now))

namespace Tracks

theorem empty (k : String) (l : WindowLimit) (t : Moment) :
    Tracks k l (Slots.empty : Slots ν) .empty t :=
  .gone rfl fun _ h => absurd h List.not_mem_nil

theorem mono (h : Tracks k l s w t) (ht : t ≤ t') : Tracks k l s w t' := by
  cases h with
  | gone absent old =>
    exact .gone absent fun a ha =>
      Span.le_trans (old a ha) (Moment.elapsed_le_elapsed (Moment.le_refl a) ht)
  | kept slot present state ttl used => exact .kept slot present state ttl used

/-- Slots that differ elsewhere only. -/
theorem of_get?_eq {s' : Slots ν} (h : Tracks k l s w t) (hs : s'.table.get? k = s.table.get? k) :
    Tracks k l s' w t := by
  cases h with
  | gone absent old => exact .gone (hs.trans absent) old
  | kept slot present state ttl used => exact .kept slot (hs.trans present) state ttl used

theorem makeRoom (h : Tracks k l s w t) (ht : t ≤ now)
    (hv : s.table.has k = true → s.victim? policy key now ≠ some k) :
    Tracks k l (s.makeRoom policy key now) w now := by
  rcases get?_makeRoom_cases hv with hs | ⟨hs, slot, hslot, he⟩
  · exact (h.mono ht).of_get?_eq hs
  · refine .gone hs ?_
    cases h with
    | gone absent old => simp [absent] at hslot
    | kept slot' present state ttl used =>
      obtain rfl : slot' = slot := Option.some.inj (present.symm.trans hslot)
      exact old_of_isExpired ttl used he

theorem removeStarting (h : Tracks k l s w t) {start : String} (hk : startsWith start k = false) :
    Tracks k l (s.removeStarting start).2 w t := by
  refine h.of_get?_eq ?_
  rw [get?_removeStarting, hk]
  rfl

variable [Amount ν]

/-- The slot of the key, as it is found or made anew, judges as the window does. -/
theorem slotFor (h : Tracks k l s w t) (ht : t ≤ now) :
    ∃ w', (s.slotFor k (.window l) now).state = .window w' ∧
      w'.live l.window now = w.live l.window now ∧
      ∀ a ∈ w'.entries, a ≤ (s.slotFor k (.window l) now).lastAccess := by
  have hfresh : (∀ a ∈ w.entries, l.window ≤ a.elapsed now) →
      ∃ w', RuleState.fresh (.window l : Algorithm ν) now = .window w' ∧
        w'.live l.window now = w.live l.window now ∧ ∀ a ∈ w'.entries, a ≤ now := by
    intro old
    refine ⟨.empty, rfl, ?_, fun a ha => absurd ha List.not_mem_nil⟩
    rw [live_eq_nil old (Moment.le_refl now)]
    rfl
  unfold Slots.slotFor
  cases h.mono ht with
  | gone absent old =>
    simp only [absent]
    exact hfresh old
  | kept slot present state ttl used =>
    simp only [present]
    cases he : slot.isExpired now with
    | true => exact hfresh (old_of_isExpired ttl used he)
    | false => exact ⟨w, state, rfl, used⟩

/-- A request of the key itself has the outcome of a hit of the window. -/
theorem judge_self (policy : EvictionPolicy) (h : Tracks k l s w t) (ht : t ≤ now) :
    (s.judge policy k (.window l) now).1 = (w.hit l now).1 ∧
      Tracks k l (s.judge policy k (.window l) now).2 (w.hit l now).2 now := by
  have hroomy : Tracks k l (s.makeRoom policy k now) w now := by
    refine h.makeRoom ht fun hhas => ?_
    rw [victim?_of_has hhas]
    exact nofun
  obtain ⟨w', hstate, hlive, hused⟩ := hroomy.slotFor (Moment.le_refl now)
  obtain ⟨slot, hslot⟩ : ∃ slot, (s.makeRoom policy k now).slotFor k (.window l) now =
    slot := ⟨_, rfl⟩
  rw [hslot] at hstate hused
  have hjudge : slot.state.judge (.window l) now = ((w.hit l now).1, .window (w.hit l now).2) := by
    rw [hstate, ← Window.hit_congr hlive]
    rfl
  have hall : s.judge policy k (.window l) now = ((w.hit l now).1, { s.makeRoom policy k now with
      table := (s.makeRoom policy k now).table.insert k
        ⟨.window (w.hit l now).2, slot.lastAccess.latest now, l.window⟩ }) := by
    simp only [Slots.judge, hslot, hjudge]
    rfl
  rw [hall]
  refine ⟨rfl, .kept ⟨.window (w.hit l now).2, slot.lastAccess.latest now, l.window⟩ ?_ rfl rfl ?_⟩
  · rw [Table.get?_insert, if_pos rfl]
  · intro a ha
    rw [← Window.hit_congr hlive] at ha
    rcases Window.mem_hit ha with rfl | ha
    · exact Moment.le_latest_right _ _
    · exact Moment.le_trans (hused a ha) (Moment.le_latest_left _ _)

/-- A request of another key changes nothing, if it does not push this one out. -/
theorem judge_other (h : Tracks k l s w t) (ht : t ≤ now) (hk : key ≠ k)
    (hv : s.victim? policy key now ≠ some k) (a : Algorithm ν) :
    Tracks k l (s.judge policy key a now).2 w now := by
  refine (h.makeRoom ht fun _ => hv).of_get?_eq ?_
  show (Table.insert _ key _).get? k = _
  rw [Table.get?_insert, if_neg hk]

/-- The counts that are read are those of the window. -/
theorem status (h : Tracks k l s w t) (ht : t ≤ now) {rule : Rule ν}
    (hr : rule.algorithm = .window l) :
    s.status k rule now = w.status l rule.label now := by
  have hnone : (∀ a ∈ w.entries, l.window ≤ a.elapsed now) →
      Window.empty.status l rule.label now = w.status l rule.label now := by
    intro old
    refine Window.status_congr ?_ rule.label
    rw [live_eq_nil old (Moment.le_refl now)]
    rfl
  unfold Slots.status
  rw [hr]
  cases h.mono ht with
  | gone absent old =>
    simp only [absent]
    exact hnone old
  | kept slot present state ttl used =>
    simp only [present]
    cases he : slot.isExpired now with
    | true => exact hnone (old_of_isExpired ttl used he)
    | false =>
      rw [state]
      rfl

end Tracks

/-! ### Requests with their answers -/

/-- The key that a request is about, if it is about one. -/
def Request.key? : Request ν → Option String
  | .judge key _ _ | .status key _ _ => some key
  | .removeStarting _ | .clear => none

/-- When a request is made, as far as it says so. -/
def Request.now? : Request ν → Option Moment
  | .judge _ _ now | .status _ _ now => some now
  | .removeStarting _ | .clear => none

/-- The algorithm that a request is made with. -/
def Request.algorithm? : Request ν → Option (Algorithm ν)
  | .judge _ a _ => some a
  | .status _ rule _ => some rule.algorithm
  | .removeStarting _ | .clear => none

/-- A request that does not ask to forget the key. -/
def Request.Spares (k : String) : Request ν → Prop
  | .judge _ _ _ | .status _ _ _ => True
  | .removeStarting start => startsWith start k = false
  | .clear => False

/-- Of readings that do not step back a request takes the first one. -/
theorem pairwise_now? {r : Request ν} {rs : List (Request ν)}
    (h : (t :: (r :: rs).filterMap Request.now?).Pairwise (· ≤ ·)) :
    (∀ now, r.now? = some now → t ≤ now) ∧
    (r.now?.getD t :: rs.filterMap Request.now?).Pairwise (· ≤ ·) := by
  cases hn : r.now? with
  | none =>
    rw [List.filterMap_cons_none hn] at h
    exact ⟨nofun, h⟩
  | some now =>
    rw [List.filterMap_cons_some hn] at h
    obtain ⟨hfirst, hrest⟩ := List.pairwise_cons.1 h
    refine ⟨fun now' e => ?_, hrest⟩
    exact Option.some.inj e ▸ hfirst now (.head _)

variable [Amount ν]

/-- Requests one after another, each with its answer. -/
def transcript (policy : EvictionPolicy) : Slots ν → List (Request ν) → List (Request ν × Answer)
  | _, [] => []
  | s, r :: rs => (r, (s.step policy r).1) :: transcript policy (s.step policy r).2 rs

/-- In the course of the requests the key is never given up to make room. -/
def Undisturbed (policy : EvictionPolicy) (k : String) : Slots ν → List (Request ν) → Prop
  | _, [] => True
  | s, r :: rs => (∀ key a now, r = .judge key a now → s.victim? policy key now ≠ some k) ∧
    Undisturbed policy k (s.step policy r).2 rs

end Slots

namespace Window

variable {ν : Type} [Amount ν]

/-- The answer of a bare window to a request of the one rule that it is for. -/
def answer (l : WindowLimit) (w : Window) : Slots.Request ν → Slots.Answer × Window
  | .judge _ _ now => (.outcome (w.hit l now).1, (w.hit l now).2)
  | .status _ rule now => (.status (w.status l rule.label now), w)
  | .removeStarting _ => (.removed 0, w)
  | .clear => (.cleared, w)

/-- Requests to a bare window one after another, each with its answer. -/
def transcript (l : WindowLimit) :
    Window → List (Slots.Request ν) → List (Slots.Request ν × Slots.Answer)
  | _, [] => []
  | w, r :: rs => (r, (w.answer l r).1) :: transcript l (w.answer l r).2 rs

end Window

namespace Slots

variable {ν : Type} [Amount ν] {s : Slots ν} {policy : EvictionPolicy} {k : String} {t : Moment}
variable {l : WindowLimit} {w : Window} {r : Request ν} {rs : List (Request ν)}

namespace Tracks

/-- A request of the key is answered as by the window. -/
theorem step_self (policy : EvictionPolicy) (h : Tracks k l s w t)
    (ht : ∀ now, r.now? = some now → t ≤ now) (hk : r.key? = some k)
    (ha : r.algorithm? = some (.window l)) :
    (s.step policy r).1 = (w.answer l r).1 ∧
      Tracks k l (s.step policy r).2 (w.answer l r).2 (r.now?.getD t) := by
  cases r with
  | judge key a now =>
    obtain rfl : key = k := Option.some.inj hk
    obtain rfl : a = .window l := Option.some.inj ha
    obtain ⟨ho, hs⟩ := h.judge_self policy (ht now rfl)
    exact ⟨congrArg Answer.outcome ho, hs⟩
  | status key rule now =>
    obtain rfl : key = k := Option.some.inj hk
    have hr : rule.algorithm = .window l := Option.some.inj ha
    exact ⟨congrArg Answer.status (h.status (ht now rfl) hr), h.mono (ht now rfl)⟩
  | removeStarting start => cases hk
  | clear => cases hk

/-- Any other request leaves the window as it is. -/
theorem step_other (h : Tracks k l s w t) (ht : ∀ now, r.now? = some now → t ≤ now)
    (hk : r.key? ≠ some k) (hr : r.Spares k)
    (hv : ∀ key a now, r = .judge key a now → s.victim? policy key now ≠ some k) :
    Tracks k l (s.step policy r).2 w (r.now?.getD t) := by
  cases r with
  | judge key a now =>
    have hne : key ≠ k := fun e => hk (congrArg some e)
    exact h.judge_other (ht now rfl) hne (hv key a now rfl) a
  | status key rule now => exact h.mono (ht now rfl)
  | removeStarting start => exact h.removeStarting hr
  | clear => exact hr.elim

/-- From slots that stand for a window, by induction on the requests. -/
theorem transcript (h : Tracks k l s w t) (ht : (t :: rs.filterMap Request.now?).Pairwise (· ≤ ·))
    (ha : ∀ r ∈ rs, r.key? = some k → r.algorithm? = some (.window l)) (hr : ∀ r ∈ rs, r.Spares k)
    (hv : Undisturbed policy k s rs) :
    (Slots.transcript policy s rs).filter (fun e => e.1.key? = some k) =
      w.transcript l (rs.filter fun r => r.key? = some k) := by
  induction rs generalizing s w t with
  | nil => rfl
  | cons r rs ih =>
    obtain ⟨hnow, hrest⟩ := pairwise_now? ht
    have ha' : ∀ r ∈ rs, r.key? = some k → r.algorithm? = some (.window l) :=
        fun r m => ha r (.tail _ m)
    have hr' : ∀ r ∈ rs, r.Spares k := fun r m => hr r (.tail _ m)
    rw [Slots.transcript]
    by_cases hk : r.key? = some k
    · obtain ⟨hanswer, hs⟩ := h.step_self policy hnow hk (ha r (.head _) hk)
      rw [List.filter_cons_of_pos (by simpa using hk), List.filter_cons_of_pos (by simpa using hk),
        Window.transcript, hanswer, ih hs hrest ha' hr' hv.2]
    · have hs := h.step_other hnow hk (hr r (.head _)) hv.1
      rw [List.filter_cons_of_neg (by simpa using hk), List.filter_cons_of_neg (by simpa using hk),
        ih hs hrest ha' hr' hv.2]

end Tracks

/-- **Slots come and go unseen.** Of requests at times that do not step back, those of a key that is
used with one window rule only, is not asked to be forgotten and is never given up for another key
have the answers of a bare window that gets no others. -/
theorem transcript_eq_window (policy : EvictionPolicy) (k : String) (l : WindowLimit)
    (rs : List (Request ν)) (ht : (rs.filterMap Request.now?).Pairwise (· ≤ ·))
    (ha : ∀ r ∈ rs, r.key? = some k → r.algorithm? = some (.window l)) (hr : ∀ r ∈ rs, r.Spares k)
    (hv : Undisturbed policy k .empty rs) :
    (transcript policy .empty rs).filter (fun e => e.1.key? = some k) =
      Window.empty.transcript l (rs.filter fun r => r.key? = some k) := by
  cases hts : rs.filterMap Request.now? with
  | nil => exact (Tracks.empty k l .epoch).transcript (hts ▸ List.pairwise_singleton _ _) ha hr hv
  | cons t ts =>
    refine (Tracks.empty k l t).transcript ?_ ha hr hv
    rw [hts] at ht ⊢
    refine List.pairwise_cons.2 ⟨fun x hx => ?_, ht⟩
    rcases List.mem_cons.1 hx with rfl | hx
    · exact Moment.le_refl x
    · exact (List.pairwise_cons.1 ht).1 x hx

/-- One admission a second, in slots with room for one key: the request of `b` drops what `a` has
left, and that of `a` what `b` has left. -/
def takingTurns : List (Request Rat) :=
  [.judge "a" (.window ⟨1, 1⟩) (.ofMillis 0), .judge "a" (.window ⟨1, 1⟩) (.ofMillis 500),
    .judge "b" (.window ⟨2, 1⟩) (.ofMillis 1500),
    .status "a" ⟨none, .window ⟨1, 1⟩⟩ (.ofMillis 1500),
    .removeStarting "b:", .judge "a" (.window ⟨1, 1⟩) (.ofMillis 2500)]

theorem transcript_eq_window_takingTurns :
    (takingTurns.filterMap Request.now?).Pairwise (· ≤ ·) ∧
      (∀ r ∈ takingTurns, r.key? = some "a" → r.algorithm? = some (.window ⟨1, 1⟩)) ∧
      (∀ r ∈ takingTurns, r.Spares "a") ∧ Undisturbed (.leastRecent 1) "a" .empty takingTurns ∧
      (transcript (.leastRecent 1) .empty takingTurns).filter (fun e => e.1.key? = some "a") =
        Window.empty.transcript ⟨1, 1⟩ (takingTurns.filter fun r => r.key? = some "a") := by
  have ht : (takingTurns.filterMap Request.now?).Pairwise (· ≤ ·) := by decide
  have ha : ∀ r ∈ takingTurns, r.key? = some "a" → r.algorithm? = some (.window ⟨1, 1⟩) := by
    simp [takingTurns, Request.key?, Request.algorithm?]
  have hr : ∀ r ∈ takingTurns, r.Spares "a" := by
    simp [takingTurns, Request.Spares, show startsWith "b:" "a" = false by decide]
  have hv : Undisturbed (.leastRecent 1) "a" .empty takingTurns := by
    refine ⟨?_, ?_, ?_, ?_, ?_, ?_, trivial⟩ <;> intro key a now h <;> cases h <;> decide
  exact ⟨ht, ha, hr, hv, transcript_eq_window (.leastRecent 1) "a" ⟨1, 1⟩ takingTurns ht ha hr hv⟩

end Slots

end GuardedWrites

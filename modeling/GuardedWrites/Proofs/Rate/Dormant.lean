import GuardedWrites.Proofs.Rate.SlotCapacity
import GuardedWrites.Proofs.Rate.Spending

/-!
# Buckets come and go unseen

The slot of a bucket means something for as long as it takes an empty bucket to become full. That
time is counted from the last take, also from one that was denied. What flows in is counted from the
last refill, which is never later. So a bucket that is dropped has become full, and from then on it
answers as the full one that takes its place.

* `Bucket.capacity_le_inflow` — in the time for which a slot means something a whole bucket flows
  in;
* `Bucket.Ripe.take`, `Bucket.Ripe.status` — a bucket that has become full answers as a new one;
* `Bucket.transcript` — requests with their answers, by a bare bucket;
* `Slots.Holds` — the slots stand for a bucket that is never dropped; one lemma for each request;
* `Slots.transcript_eq_bucket` — of the requests of one key both answer alike.
-/

namespace GuardedWrites

/-- Whole seconds are not rounded. -/
theorem nearestNanos_natCast (n : Nat) : nearestNanos n = n * nanosPerSecond := by
  obtain ⟨habove, hbelow⟩ := nearestNanos_within_half (x := n) (Nat.cast_nonneg n)
  have habove : 2 * (n * nanosPerSecond) ≤ 2 * nearestNanos n + 1 := by
    unfold inNanos at habove
    exact_mod_cast habove
  have hbelow : 2 * nearestNanos n ≤ 2 * (n * nanosPerSecond) + 1 := by
    unfold inNanos at hbelow
    exact_mod_cast hbelow
  omega

namespace Bucket

section Full

variable {b : Bucket ℚ} {l : BucketLimit ℚ} {t t' now : Moment}

/-- The time for which a slot means something, in whole seconds. -/
theorem fullRefill_eq (hl : l.fault? = none) :
    ∃ n : Nat, l.fullRefill = .ofFraction n ∧ (l.capacity : ℚ) ≤ n * l.refillRate := by
  have hrate := rate_pos hl
  obtain ⟨x, hx⟩ : ∃ x, (l.capacity : ℚ) / l.refillRate = x := ⟨_, rfl⟩
  have hnonneg : 0 ≤ x := hx ▸ div_nonneg (Nat.cast_nonneg _) hrate.le
  have hceil : (x : ℚ) ≤ x.ceil := Rat.le_ceil
  have hpos : 0 ≤ x.ceil := by exact_mod_cast le_trans hnonneg hceil
  have hn : ((x.ceil.toNat : Nat) : ℚ) = x.ceil := by exact_mod_cast Int.toNat_of_nonneg hpos
  refine ⟨x.ceil.toNat, ?_, ?_⟩
  · have hspan : l.fullRefill =
        .ofFraction (mkRat (Rat.ceil (Amount.ofNat l.capacity / l.refillRate)) 1) := rfl
    have hquotient : (Amount.ofNat l.capacity / l.refillRate : ℚ) = x := by
      rw [ofNat_eq_cast]
      exact hx
    rw [hspan, hquotient, Rat.mkRat_one, hn]
  · rw [hn, ← div_le_iff₀ hrate, hx]
    exact hceil

/-- In the time for which a slot means something a whole bucket flows in, if a span can hold that
time. -/
theorem capacity_le_inflow (hl : l.fault? = none) (h : l.fullRefill < .longest) :
    (l.capacity : ℚ) ≤ inflow l l.fullRefill.nanos := by
  obtain ⟨n, hspan, hn⟩ := fullRefill_eq hl
  rw [hspan] at h ⊢
  rw [Span.nanos_ofFraction h, nearestNanos_natCast]
  unfold inflow
  push_cast
  rwa [mul_div_cancel_right₀ _ nanosPerSecond_pos.ne']

/-- A bucket that has become full. -/
structure Ripe (l : BucketLimit ℚ) (b : Bucket ℚ) (now : Moment) : Prop where
  lastRefill_le : b.lastRefill ≤ now
  refilled_eq : b.refilled l now = l.capacity

theorem ripe_full (hl : l.fault? = none) (now : Moment) : Ripe l (full l now) now := by
  refine ⟨Moment.le_refl now, le_antisymm (refilled_le _ l now) ?_⟩
  have htokens : (full l now).tokens = l.capacity := ofNat_eq_cast l.capacity
  exact htokens ▸ (within_full l now).tokens_le_refilled hl now

namespace Ripe

theorem mono (h : Ripe l b t) (hl : l.fault? = none) (ht : t ≤ t') : Ripe l b t' := by
  refine ⟨Moment.le_trans h.lastRefill_le ht, le_antisymm (refilled_le b l t') ?_⟩
  exact h.refilled_eq ▸ refilled_mono hl ht

/-- A take finds no difference between a bucket that has become full and a new one. -/
theorem take (h : Ripe l b now) (hl : l.fault? = none) :
    b.take l now = (full l now).take l now := by
  have hnew := ripe_full hl now
  have hsame : b.refilled l now = (full l now).refilled l now :=
      h.refilled_eq.trans hnew.refilled_eq.symm
  have hlast : b.lastRefill.latest now = (full l now).lastRefill.latest now :=
    (Moment.latest_of_le h.lastRefill_le).trans (Moment.latest_of_le hnew.lastRefill_le).symm
  have henough : enough ((full l now).refilled l now) = true := by
    have hcapacity := one_le_capacity hl
    have hpos : (0 : ℚ) < 1 / nanosPerSecond := one_div_pos.2 nanosPerSecond_pos
    rw [enough_iff_le, hnew.refilled_eq, tolerance_eq]
    linarith
  unfold Bucket.take
  rw [hsame, hlast]
  simp only [henough, if_true]

theorem status (h : Ripe l b now) (hl : l.fault? = none) (label : String) :
    b.status l label now = (full l now).status l label now := by
  have hsame : b.refilled l now = (full l now).refilled l now :=
    h.refilled_eq.trans (ripe_full hl now).refilled_eq.symm
  unfold Bucket.status
  rw [hsame]

end Ripe

end Full

/-! ### A bare bucket -/

variable {ν : Type} [Amount ν]

/-- The bucket that a request finds: a full one, if there was no take yet. -/
def found (l : BucketLimit ν) (b : Option (Bucket ν)) (now : Moment) : Bucket ν :=
  b.getD (full l now)

/-- The answer of a bare bucket to a request of the one rule that it is for. -/
def answer (l : BucketLimit ν) (b : Option (Bucket ν)) :
    Slots.Request ν → Slots.Answer × Option (Bucket ν)
  | .judge _ _ now => (.outcome ((found l b now).take l now).1, some ((found l b now).take l now).2)
  | .status _ rule now => (.status ((found l b now).status l rule.label now), b)
  | .removeStarting _ => (.removed 0, b)
  | .clear => (.cleared, none)

/-- Requests to a bare bucket one after another, each with its answer. -/
def transcript (l : BucketLimit ν) :
    Option (Bucket ν) → List (Slots.Request ν) → List (Slots.Request ν × Slots.Answer)
  | _, [] => []
  | b, r :: rs => (r, (answer l b r).1) :: transcript l (answer l b r).2 rs

end Bucket

/-! ### A bucket that is never dropped -/

/-- A slot that holds a bucket of the rule. It was used at one of the given readings, no later than
at `t`. -/
structure Slot.Carries (l : BucketLimit ℚ) (ts : List Moment) (slot : Slot ℚ) (b : Bucket ℚ)
    (t : Moment) : Prop where
  state : slot.state = .bucket b
  ttl : slot.ttl = l.fullRefill
  within : b.Within l
  lastRefill_le : b.lastRefill ≤ slot.lastAccess
  lastAccess_mem : slot.lastAccess ∈ ts
  lastAccess_le : slot.lastAccess ≤ t

namespace Slot.Carries

variable {l : BucketLimit ℚ} {ts : List Moment} {slot : Slot ℚ} {b : Bucket ℚ} {t now : Moment}

theorem mono (h : slot.Carries l ts b t) (ht : t ≤ now) : slot.Carries l ts b now :=
  { h with lastAccess_le := Moment.le_trans h.lastAccess_le ht }

/-- When the slot means nothing any more, its bucket has become full: what flows in does so for at
least as long as the slot is not used. -/
theorem ripe (h : slot.Carries l ts b t) (hl : l.fault? = none)
    (hspan : ∀ t ∈ ts, ∀ t' ∈ ts, t.elapsed t' < .longest) (ht : t ≤ now) (hnow : now ∈ ts)
    (he : slot.isExpired now = true) : b.Ripe l now := by
  refine ⟨Moment.le_trans h.lastRefill_le (Moment.le_trans h.lastAccess_le ht), ?_⟩
  have hidle : slot.ttl ≤ slot.lastAccess.elapsed now := of_decide_eq_true he
  rw [h.ttl] at hidle
  have hspent : l.fullRefill ≤ b.lastRefill.elapsed now :=
    Span.le_trans hidle (Moment.elapsed_le_elapsed h.lastRefill_le (Moment.le_refl now))
  have hfill := Bucket.capacity_le_inflow hl
      (Span.lt_of_le_of_lt hidle (hspan _ h.lastAccess_mem _ hnow))
  have hinflow := Bucket.inflow_le_inflow hl hspent
  have hnonneg := h.within.nonneg
  rw [Bucket.refilled_eq]
  exact min_eq_right (by linarith)

/-- After a take the slot holds what the take leaves. -/
theorem take (h : slot.Carries l ts b now) (hl : l.fault? = none) (hnow : now ∈ ts) :
    (Slots.after slot (.bucket l) now).Carries l ts (b.take l now).2 now := by
  have hlast : slot.lastAccess.latest now = now := Moment.latest_of_le h.lastAccess_le
  refine ⟨?_, rfl, h.within.take hl now, ?_, ?_, ?_⟩
  · show (slot.state.judge (.bucket l) now).2 = _
    rw [h.state]
    rfl
  · show (b.take l now).2.lastRefill ≤ slot.lastAccess.latest now
    have hrefill : b.lastRefill ≤ now := Moment.le_trans h.lastRefill_le h.lastAccess_le
    rw [hlast]
    rcases Bucket.lastRefill_take b l now with hkept | hmoved
    · exact hkept ▸ hrefill
    · rw [hmoved, Moment.latest_of_le hrefill]
      exact Moment.le_refl now
  · show slot.lastAccess.latest now ∈ ts
    rwa [hlast]
  · show slot.lastAccess.latest now ≤ now
    rw [hlast]
    exact Moment.le_refl now

end Slot.Carries

namespace Slots

variable {l : BucketLimit ℚ} {ts : List Moment} {s : Slots ℚ} {b : Option (Bucket ℚ)}
variable {k key : String}
variable {t t' now : Moment} {policy : EvictionPolicy} {r : Request ℚ} {rs : List (Request ℚ)}

/-- From `t` on the slots stand for a bucket under `k` that nobody drops, if there is one
already. -/
inductive Holds (k : String) (l : BucketLimit ℚ) (ts : List Moment) (s : Slots ℚ) (t : Moment) :
    Option (Bucket ℚ) → Prop
  /-- There is no slot, and there was no take. -/
  | unused (absent : s.table.get? k = none) : Holds k l ts s t none
  /-- There is no slot, and the bucket has become full. -/
  | dropped (b : Bucket ℚ) (absent : s.table.get? k = none) (ripe : b.Ripe l t) :
      Holds k l ts s t (some b)
  /-- The slot holds the bucket. -/
  | kept (b : Bucket ℚ) (slot : Slot ℚ) (present : s.table.get? k = some slot)
      (carries : slot.Carries l ts b t) :
    Holds k l ts s t (some b)

namespace Holds

theorem mono (h : Holds k l ts s t b) (hl : l.fault? = none) (ht : t ≤ t') :
    Holds k l ts s t' b := by
  cases h with
  | unused absent => exact .unused absent
  | dropped b absent ripe => exact .dropped b absent (ripe.mono hl ht)
  | kept b slot present carries => exact .kept b slot present (carries.mono ht)

/-- Slots that differ elsewhere only. -/
theorem of_get?_eq {s' : Slots ℚ} (h : Holds k l ts s t b) (hs : s'.table.get? k = s.table.get? k) :
    Holds k l ts s' t b := by
  cases h with
  | unused absent => exact .unused (hs.trans absent)
  | dropped b absent ripe => exact .dropped b (hs.trans absent) ripe
  | kept b slot present carries => exact .kept b slot (hs.trans present) carries

section Requests

variable (hl : l.fault? = none) (hspan : ∀ t ∈ ts, ∀ t' ∈ ts, t.elapsed t' < .longest)
variable (ht : t ≤ now) (hnow : now ∈ ts)

include hl hspan ht hnow

theorem makeRoom (h : Holds k l ts s t b)
    (hv : s.table.has k = true → s.victim? policy key now ≠ some k) :
    Holds k l ts (s.makeRoom policy key now) now b := by
  rcases get?_makeRoom_cases hv with hs | ⟨hs, slot, hslot, he⟩
  · exact (h.mono hl ht).of_get?_eq hs
  · cases h with
    | unused absent => exact .unused hs
    | dropped b absent ripe => exact .dropped b hs (ripe.mono hl ht)
    | kept b slot' present carries =>
      obtain rfl : slot' = slot := Option.some.inj (present.symm.trans hslot)
      exact .dropped b hs (carries.ripe hl hspan ht hnow he)

/-- The slot of the key, as it is found or made anew, holds a bucket that answers as the one that is
never dropped. -/
theorem slotFor (h : Holds k l ts s t b) :
    ∃ c, (s.slotFor k (.bucket l) now).Carries l ts c now ∧
      c.take l now = (Bucket.found l b now).take l now ∧
      ∀ label, c.status l label now = (Bucket.found l b now).status l label now := by
  have hfresh :
      (⟨.fresh (.bucket l) now, now, (Algorithm.bucket l).ttl⟩ : Slot ℚ).Carries l ts
        (.full l now) now :=
    ⟨rfl, rfl, Bucket.within_full l now, Moment.le_refl now, hnow, Moment.le_refl now⟩
  unfold Slots.slotFor
  cases h with
  | unused absent =>
    simp only [absent]
    exact ⟨.full l now, hfresh, rfl, fun label => rfl⟩
  | dropped b absent ripe =>
    simp only [absent]
    have hripe := ripe.mono hl ht
    exact ⟨.full l now, hfresh, (hripe.take hl).symm, fun label => (hripe.status hl label).symm⟩
  | kept b slot present carries =>
    simp only [present]
    cases he : slot.isExpired now with
    | true =>
      have hripe := carries.ripe hl hspan ht hnow he
      exact ⟨.full l now, hfresh, (hripe.take hl).symm, fun label => (hripe.status hl label).symm⟩
    | false => exact ⟨b, carries.mono ht, rfl, fun label => rfl⟩

/-- A request of the key itself has the outcome of a take from the bucket. -/
theorem judge_self (policy : EvictionPolicy) (h : Holds k l ts s t b) :
    (s.judge policy k (.bucket l) now).1 = ((Bucket.found l b now).take l now).1 ∧
      Holds k l ts (s.judge policy k (.bucket l) now).2 now
        (some ((Bucket.found l b now).take l now).2) := by
  have hroomy : Holds k l ts (s.makeRoom policy k now) now b := by
    refine h.makeRoom hl hspan ht hnow ?_
    intro hhas
    rw [victim?_of_has hhas]
    exact nofun
  obtain ⟨c, hcarries, htake, -⟩ := hroomy.slotFor hl hspan (Moment.le_refl now) hnow
  rw [← htake]
  constructor
  · show (RuleState.judge (Slots.slotFor _ k (.bucket l) now).state (.bucket l) now).1 = _
    rw [hcarries.state]
    rfl
  · refine .kept _ _ ?_ (hcarries.take hl hnow)
    rw [get?_judge, if_pos rfl]

/-- A request of another key changes nothing, if it does not push this one out. -/
theorem judge_other (h : Holds k l ts s t b) (hk : key ≠ k) (hv : s.victim? policy key now ≠ some k)
    (a : Algorithm ℚ) : Holds k l ts (s.judge policy key a now).2 now b := by
  have hroomy : Holds k l ts (s.makeRoom policy key now) now b :=
      h.makeRoom hl hspan ht hnow fun _ => hv
  refine hroomy.of_get?_eq ?_
  rw [get?_judge, if_neg hk]

/-- The counts that are read are those of the bucket. -/
theorem status (h : Holds k l ts s t b) {rule : Rule ℚ} (hr : rule.algorithm = .bucket l) :
    s.status k rule now = (Bucket.found l b now).status l rule.label now := by
  obtain ⟨c, hcarries, -, hstatus⟩ := h.slotFor hl hspan ht hnow
  rw [status_eq, hr, hcarries.state, ← hstatus]
  rfl

end Requests

end Holds

/-! ### Requests with their answers -/

/-- A request that is about the key, or about every key. -/
def Request.concerns {ν : Type} (k : String) : Request ν → Bool
  | .judge key _ _ | .status key _ _ => key = k
  | .removeStarting _ => false
  | .clear => true

namespace Holds

/-- A request that is about the key is answered as by the bucket. -/
theorem step_self (policy : EvictionPolicy) (h : Holds k l ts s t b) (hl : l.fault? = none)
    (hspan : ∀ t ∈ ts, ∀ t' ∈ ts, t.elapsed t' < .longest)
    (ht : ∀ now, r.now? = some now → t ≤ now ∧ now ∈ ts) (hk : r.concerns k = true)
    (ha : r.key? = some k → r.algorithm? = some (.bucket l)) :
    (s.step policy r).1 = (Bucket.answer l b r).1 ∧
      Holds k l ts (s.step policy r).2 (r.now?.getD t) (Bucket.answer l b r).2 := by
  cases r with
  | judge key a now =>
    obtain rfl : key = k := of_decide_eq_true hk
    obtain rfl : a = .bucket l := Option.some.inj (ha rfl)
    obtain ⟨hlater, hnow⟩ := ht now rfl
    obtain ⟨ho, hs⟩ := h.judge_self hl hspan hlater hnow policy
    exact ⟨congrArg Answer.outcome ho, hs⟩
  | status key rule now =>
    obtain rfl : key = k := of_decide_eq_true hk
    have hr : rule.algorithm = .bucket l := Option.some.inj (ha rfl)
    obtain ⟨hlater, hnow⟩ := ht now rfl
    exact ⟨congrArg Answer.status (h.status hl hspan hlater hnow hr), h.mono hl hlater⟩
  | removeStarting start => cases hk
  | clear => exact ⟨rfl, .unused rfl⟩

/-- Any other request leaves the bucket as it is. -/
theorem step_other (h : Holds k l ts s t b) (hl : l.fault? = none)
    (hspan : ∀ t ∈ ts, ∀ t' ∈ ts, t.elapsed t' < .longest)
    (ht : ∀ now, r.now? = some now → t ≤ now ∧ now ∈ ts) (hk : r.concerns k = false)
    (hr : ∀ start, r = .removeStarting start → startsWith start k = false)
    (hv : ∀ key a now, r = .judge key a now → s.victim? policy key now ≠ some k) :
    Holds k l ts (s.step policy r).2 (r.now?.getD t) b := by
  cases r with
  | judge key a now =>
    have hne : key ≠ k := of_decide_eq_false hk
    obtain ⟨hlater, hnow⟩ := ht now rfl
    exact h.judge_other hl hspan hlater hnow hne (hv key a now rfl) a
  | status key rule now => exact h.mono hl (ht now rfl).1
  | removeStarting start =>
    refine h.of_get?_eq ?_
    show (s.removeStarting start).2.table.get? k = _
    rw [get?_removeStarting, hr start rfl]
    rfl
  | clear => cases hk

/-- From slots that stand for a bucket, by induction on the requests. -/
theorem transcript (h : Holds k l ts s t b) (hl : l.fault? = none)
    (hspan : ∀ t ∈ ts, ∀ t' ∈ ts, t.elapsed t' < .longest) (hts : rs.filterMap Request.now? ⊆ ts)
    (ht : (t :: rs.filterMap Request.now?).Pairwise (· ≤ ·))
    (ha : ∀ r ∈ rs, r.key? = some k → r.algorithm? = some (.bucket l))
    (hr : ∀ start, .removeStarting start ∈ rs → startsWith start k = false)
    (hv : Undisturbed policy k s rs) :
    (Slots.transcript policy s rs).filter (fun e => e.1.concerns k) =
      Bucket.transcript l b (rs.filter fun r => r.concerns k) := by
  induction rs generalizing s b t with
  | nil => rfl
  | cons r rs ih =>
    obtain ⟨hlater, hrest⟩ := pairwise_now? ht
    have hnow : ∀ now, r.now? = some now → t ≤ now ∧ now ∈ ts := by
      intro now hn
      refine ⟨hlater now hn, hts ?_⟩
      rw [List.filterMap_cons_some hn]
      exact .head _
    have hts' : rs.filterMap Request.now? ⊆ ts := by
      intro now hn
      obtain ⟨r', hr', hn⟩ := List.mem_filterMap.1 hn
      exact hts (List.mem_filterMap.2 ⟨r', .tail _ hr', hn⟩)
    have ha' : ∀ r ∈ rs, r.key? = some k → r.algorithm? = some (.bucket l) :=
        fun r m => ha r (.tail _ m)
    have hr' : ∀ start, .removeStarting start ∈ rs → startsWith start k = false :=
        fun start m => hr start (.tail _ m)
    rw [Slots.transcript]
    cases hk : r.concerns k with
    | true =>
      obtain ⟨hanswer, hs⟩ := h.step_self policy hl hspan hnow hk (ha r (.head _))
      rw [List.filter_cons_of_pos (by exact hk), List.filter_cons_of_pos (by exact hk),
        Bucket.transcript, hanswer, ih hs hts' hrest ha' hr' hv.2]
    | false =>
      have hs := h.step_other hl hspan hnow hk (fun start e => hr start (e ▸ .head _)) hv.1
      rw [List.filter_cons_of_neg (by simp [hk]), List.filter_cons_of_neg (by simp [hk]),
        ih hs hts' hrest ha' hr' hv.2]

end Holds

/-- **Buckets come and go unseen.** Of requests at readings that do not step back and that lie less
than the longest span apart, take those of a key that is used with one bucket rule only, whose start
is not asked to be removed, and that is never given up for another key. They have the answers of one
bare bucket that gets no others. It is full at the first take, and full again at the first one after
everything was cleared. -/
theorem transcript_eq_bucket (policy : EvictionPolicy) (k : String) (l : BucketLimit ℚ)
    (hl : l.fault? = none) (rs : List (Request ℚ))
    (ht : (rs.filterMap Request.now?).Pairwise (· ≤ ·))
    (hspan : ∀ t ∈ rs.filterMap Request.now?, ∀ t' ∈ rs.filterMap Request.now?,
      t.elapsed t' < .longest)
    (ha : ∀ r ∈ rs, r.key? = some k → r.algorithm? = some (.bucket l))
    (hr : ∀ start, .removeStarting start ∈ rs → startsWith start k = false)
    (hv : Undisturbed policy k .empty rs) :
    (transcript policy .empty rs).filter (fun e => e.1.concerns k) =
      Bucket.transcript l none (rs.filter fun r => r.concerns k) := by
  obtain ⟨first, hfirst⟩ := Moment.exists_first ht
  have hstart : Holds k l (rs.filterMap Request.now?) .empty first none := .unused rfl
  exact hstart.transcript hl hspan (List.Subset.refl _) hfirst ha hr hv

/-- Two tokens at once and one a second, in slots with room for one key. The take that is denied
keeps the slot until 2.5 seconds, when `b` takes its room; a second later `a` takes it back. -/
def idleForTwoSeconds : List (Request ℚ) :=
  let l := Bucket.twoAtOnce
  [.status "a" ⟨none, .bucket l⟩ (.ofMillis 0), .judge "a" (.bucket l) (.ofMillis 0),
    .judge "a" (.bucket l) (.ofMillis 0),
    .judge "a" (.bucket l) (.ofMillis 500), .judge "b" (.window ⟨2, 1⟩) (.ofMillis 2500),
    .status "a" ⟨none, .bucket l⟩ (.ofMillis 2500), .removeStarting "b:",
    .judge "a" (.bucket l) (.ofMillis 3500),
    .clear, .judge "a" (.bucket l) (.ofMillis 3500)]

theorem transcript_eq_bucket_idleForTwoSeconds :
    let l := Bucket.twoAtOnce
    let rs := idleForTwoSeconds
    l.fault? = none ∧ (rs.filterMap Request.now?).Pairwise (· ≤ ·) ∧
      (∀ t ∈ rs.filterMap Request.now?, ∀ t' ∈ rs.filterMap Request.now?, t.elapsed t' < .longest) ∧
      (∀ r ∈ rs, r.key? = some "a" → r.algorithm? = some (.bucket l)) ∧
      (∀ start, .removeStarting start ∈ rs → startsWith start "a" = false) ∧
      Undisturbed (.leastRecent 1) "a" .empty rs ∧
      (transcript (.leastRecent 1) .empty rs).filter (fun e => e.1.concerns "a") =
        Bucket.transcript l none (rs.filter fun r => r.concerns "a") := by
  intro l rs
  have hl : l.fault? = none := by decide +kernel
  have ht : (rs.filterMap Request.now?).Pairwise (· ≤ ·) := by decide +kernel
  have hspan : ∀ t ∈ rs.filterMap Request.now?, ∀ t' ∈ rs.filterMap Request.now?,
      t.elapsed t' < .longest := by
    decide +kernel
  have ha : ∀ r ∈ rs, r.key? = some "a" → r.algorithm? = some (.bucket l) := by
    simp [rs, l, idleForTwoSeconds, Request.key?, Request.algorithm?]
  have hr : ∀ start, .removeStarting start ∈ rs → startsWith start "a" = false := by
    intro start hstart
    have hb : start = "b:" := by simpa [rs, idleForTwoSeconds] using hstart
    rw [hb]
    decide
  have hv : Undisturbed (.leastRecent 1) "a" .empty rs := by
    refine ⟨?_, ?_, ?_, ?_, ?_, ?_, ?_, ?_, ?_, ?_,
      trivial⟩ <;> intro key a now h <;> cases h <;> decide +kernel
  exact ⟨hl, ht, hspan, ha, hr, hv,
    transcript_eq_bucket (.leastRecent 1) "a" l hl rs ht hspan ha hr hv⟩

/-- Whether an answer admits a request. -/
def Answer.admits : Answer → Bool
  | .outcome o => o.allowed
  | _ => false

/-- A take of the one token, everything cleared, and another take at once. -/
def clearedBetween : List (Request ℚ) :=
  [.judge "a" (.bucket ⟨1, 1⟩) .epoch, .clear, .judge "a" (.bucket ⟨1, 1⟩) .epoch]

/-- A bucket that hears nothing of the clearing denies the second take, and the slots admit it. -/
theorem clear_fills_bucket :
    let l : BucketLimit ℚ := ⟨1, 1⟩
    let rs := clearedBetween
    l.fault? = none ∧ (rs.filterMap Request.now?).Pairwise (· ≤ ·) ∧
      (∀ t ∈ rs.filterMap Request.now?, ∀ t' ∈ rs.filterMap Request.now?, t.elapsed t' < .longest) ∧
      (∀ r ∈ rs, r.key? = some "a" → r.algorithm? = some (.bucket l)) ∧
      (∀ start, .removeStarting start ∉ rs) ∧ Undisturbed (.leastRecent 1) "a" .empty rs ∧
      (transcript (.leastRecent 1) .empty rs).filter (fun e => e.1.key? = some "a") ≠
        Bucket.transcript l none (rs.filter fun r => r.key? = some "a") := by
  intro l rs
  refine ⟨by decide +kernel, by decide +kernel, by decide +kernel, ?_, ?_, ?_, ?_⟩
  · simp [rs, l, clearedBetween, Request.key?, Request.algorithm?]
  · simp [rs, clearedBetween]
  · refine ⟨?_, ?_, ?_, trivial⟩ <;> intro key a now h <;> cases h <;> decide +kernel
  · intro h
    have hslots :
        ((transcript (.leastRecent 1) .empty rs).filter fun e => e.1.key? = some "a").map
          (·.2.admits) = [true, true] := by decide +kernel
    have hbucket :
        (Bucket.transcript l none (rs.filter fun r => r.key? = some "a")).map (·.2.admits) =
        [true, false] := by decide +kernel
    rw [h, hbucket] at hslots
    cases hslots

end Slots

end GuardedWrites

import GuardedWrites.Proofs.Rate.SlotCapacity

/-!
# What a new key costs the others

Slots never hold more keys than there is room for, whatever the clock says. A request of a key that
is there, or for which there is a free place, takes nothing from the others. Only a new key that
finds the slots full does: it drops everything out of date, or, if all of it still means something,
the one key that was used longest ago.

* `Slots.Cost` — which keys lose their slots to a request, and how many of them are given up;
* `Slots.Loses` — exactly these lose their slots, and all others keep theirs as they are;
* `Slots.cost_judge` — what one request costs;
* `Slots.givenUp` — the keys that are given up in a run, counted from the requests;
* `Slots.bounded_with_least_eviction` — every run, with any request after it.
-/

namespace GuardedWrites

namespace Slots

variable {ν : Type} {s s' : Slots ν} {max n : Nat} {key k v : String} {now : Moment}
variable {gone : String → Prop}

/-- The state of a key means nothing any more. -/
def Outdated (s : Slots ν) (now : Moment) (key : String) : Prop :=
  ∃ slot, s.table.get? key = some slot ∧ slot.isExpired now = true

/-- Which keys lose their slots to a request of `key`, if there is room for `max` keys, and how many
of them are given up although they still mean something. -/
inductive Cost (max : Nat) (s : Slots ν) (key : String) (now : Moment) :
    (String → Prop) → Nat → Prop
  /-- The key is there. -/
  | tracked (hkey : s.table.has key = true) : Cost max s key now (fun _ => False) 0
  /-- The key is new, and there is a place for it. -/
  | free (hkey : s.table.has key = false) (hroom : s.size < max) :
      Cost max s key now (fun _ => False) 0
  /-- The slots are full, but something is out of date. -/
  | swept (hkey : s.table.has key = false) (hfull : s.size = max) (hold : ∃ k, s.Outdated now k) :
    Cost max s key now (s.Outdated now) 0
  /-- The slots are full, and nothing is out of date. -/
  | evicted (v : String) (hkey : s.table.has key = false) (hfull : s.size = max)
    (hnone : ∀ k, ¬ s.Outdated now k) (hv : s.Oldest v) : Cost max s key now (fun k => k = v) 1

/-- Beside `key` exactly some keys lose their slots, and all others keep theirs as they are. -/
structure Loses (s s' : Slots ν) (key : String) (gone : String → Prop) : Prop where
  lost : ∀ k, k ≠ key → gone k → s'.table.get? k = none
  kept : ∀ k, k ≠ key → ¬ gone k → s'.table.get? k = s.table.get? k

theorem Loses.none (h : ∀ k, k ≠ key → s'.table.get? k = s.table.get? k) :
    s.Loses s' key fun _ => False :=
  ⟨fun _ _ h => h.elim, fun k hk _ => h k hk⟩

/-! ### Making room -/

theorem get?_dropExpired_of_outdated (h : s.Outdated now k) :
    (s.dropExpired now).table.get? k = none := by
  obtain ⟨slot, hslot, hold⟩ := h
  rw [get?_dropExpired, hslot, Option.filter_some, hold]
  rfl

theorem get?_dropExpired_of_not_outdated (h : ¬ s.Outdated now k) :
    (s.dropExpired now).table.get? k = s.table.get? k := by
  rw [get?_dropExpired]
  cases hslot : s.table.get? k with
  | none => rfl
  | some slot =>
    cases hold : slot.isExpired now with
    | true => exact absurd ⟨slot, hslot, hold⟩ h
    | false => simp [hold]

theorem size_dropExpired_lt (h : s.Outdated now k) : (s.dropExpired now).size < s.size := by
  refine Table.size_lt_of_has (fun _ => Table.has_of_has_filter) (k := k) ?_ ?_
  · rw [Table.has, get?_dropExpired_of_outdated h]
    rfl
  · obtain ⟨slot, hslot, -⟩ := h
    rw [Table.has, hslot]
    rfl

theorem size_dropExpired_of_none (h : ∀ k, ¬ s.Outdated now k) :
    (s.dropExpired now).size = s.size := by
  refine Nat.le_antisymm (size_dropExpired_le s now) (Table.size_le_of_has fun k hk => ?_)
  rw [Table.has, get?_dropExpired_of_not_outdated (h k)]
  exact hk

theorem oldest_of_dropExpired (hnone : ∀ k, ¬ s.Outdated now k) (h : (s.dropExpired now).Oldest v) :
    s.Oldest v := by
  obtain ⟨slot, hslot, hmin⟩ := h
  rw [get?_dropExpired_of_not_outdated (hnone v)] at hslot
  refine ⟨slot, hslot, fun k slot' hslot' => hmin k slot' ?_⟩
  rw [get?_dropExpired_of_not_outdated (hnone k)]
  exact hslot'

theorem shouldEvict_leastRecent (max n : Nat) :
    (EvictionPolicy.leastRecent max).shouldEvict n = decide (max ≤ n) := rfl

theorem makeRoom_of_has (hkey : s.table.has key = true) (policy : EvictionPolicy) (now : Moment) :
    s.makeRoom policy key now = s := by
  simp [makeRoom, hkey]

/-- What is out of date makes room enough. -/
theorem makeRoom_of_outdated (hkey : s.table.has key = false) (hold : s.Outdated now k) :
    s.makeRoom (.leastRecent s.size) key now = s.dropExpired now := by
  simp [makeRoom, hkey, shouldEvict_leastRecent, Nat.not_le.2 (size_dropExpired_lt hold)]

/-- Otherwise the key goes that was used longest ago. -/
theorem makeRoom_of_live (hkey : s.table.has key = false) (hsize : 0 < s.size)
    (hnone : ∀ k, ¬ s.Outdated now k) :
    ∃ v, s.Oldest v ∧
      s.makeRoom (.leastRecent s.size) key now =
        ⟨(s.dropExpired now).table.erase v, s.evictions + 1⟩ := by
  have hlive := size_dropExpired_of_none hnone
  obtain ⟨v, hv, hone⟩ := exists_evictOne (hlive ▸ hsize) s.size
  refine ⟨v, oldest_of_dropExpired hnone hv, ?_⟩
  simp only [makeRoom, hkey, shouldEvict_leastRecent, hlive, Nat.le_refl, decide_true,
    Bool.not_true, Bool.or_false, Bool.false_eq_true, if_false, if_true, hone]
  rfl

/-- What making room for a key costs the others. -/
theorem cost_makeRoom (hmax : 0 < max) (hsize : s.size ≤ max) (key : String) (now : Moment) :
    ∃ gone n, Cost max s key now gone n ∧ s.Loses (s.makeRoom (.leastRecent max) key now) key gone ∧
      (s.makeRoom (.leastRecent max) key now).evictions = s.evictions + n := by
  cases hkey : s.table.has key with
  | true =>
    rw [makeRoom_of_has hkey]
    exact ⟨_, 0, .tracked hkey, .none fun _ _ => rfl, rfl⟩
  | false =>
    rcases Nat.lt_or_eq_of_le hsize with hroom | rfl
    · have hsame : s.makeRoom (.leastRecent max) key now = s := by
        simp [makeRoom, shouldEvict_leastRecent, Nat.not_le.2 hroom]
      rw [hsame]
      exact ⟨_, 0, .free hkey hroom, .none fun _ _ => rfl, rfl⟩
    by_cases hold : ∃ k, s.Outdated now k
    · obtain ⟨k, hk⟩ := hold
      rw [makeRoom_of_outdated hkey hk]
      refine ⟨_, 0, .swept hkey rfl ⟨k, hk⟩,
        ⟨fun _ _ => get?_dropExpired_of_outdated, fun _ _ => ?_⟩, rfl⟩
      exact get?_dropExpired_of_not_outdated
    · have hnone : ∀ k, ¬ s.Outdated now k := not_exists.1 hold
      obtain ⟨v, hv, hgiven⟩ := makeRoom_of_live hkey hmax hnone
      rw [hgiven]
      refine ⟨_, 1, .evicted v hkey rfl hnone hv, ⟨?_, ?_⟩, rfl⟩
      · rintro k - rfl
        rw [Table.get?_erase, if_pos rfl]
      · intro k _ hne
        rw [Table.get?_erase, if_neg (Ne.symm hne), get?_dropExpired_of_not_outdated (hnone k)]

/-! ### Requests -/

section Requests

variable [Amount ν] {policy : EvictionPolicy} {r : Request ν} {rs : List (Request ν)}

/-- What a request of a key costs the others. -/
theorem cost_judge (hmax : 0 < max) (hsize : s.size ≤ max) (key : String) (a : Algorithm ν)
    (now : Moment) :
    ∃ gone n, Cost max s key now gone n ∧
      s.Loses (s.judge (.leastRecent max) key a now).2 key gone ∧
      (s.judge (.leastRecent max) key a now).2.evictions = s.evictions + n := by
  obtain ⟨gone, n, hcost, hloses, hevictions⟩ := cost_makeRoom hmax hsize key now
  have hother : ∀ k, k ≠ key → (s.judge (.leastRecent max) key a now).2.table.get? k =
      (s.makeRoom (.leastRecent max) key now).table.get? k := by
    intro k hk
    rw [get?_judge, if_neg (Ne.symm hk)]
  refine ⟨gone, n, hcost, ⟨fun k hk hgone => ?_, fun k hk hgone => ?_⟩, hevictions⟩
  · rw [hother k hk, hloses.lost k hk hgone]
  · rw [hother k hk, hloses.kept k hk hgone]

/-- A request finds the slots full, its key is not among them, and all of them still mean
something. -/
def Request.crowds (max : Nat) (s : Slots ν) : Request ν → Bool
  | .judge key _ now =>
    !s.table.has key && s.size == max && s.table.entries.all fun e => !e.2.isExpired now
  | _ => false

/-- How often a run finds the slots full of what still means something: so many keys have to be
given up. -/
def givenUp (max : Nat) : Slots ν → List (Request ν) → Nat
  | _, [] => 0
  | s, r :: rs => (r.crowds max s).toNat + givenUp max (s.step (.leastRecent max) r).2 rs

/-- The slots after some requests. -/
def run (policy : EvictionPolicy) (s : Slots ν) (rs : List (Request ν)) : Slots ν :=
  rs.foldl (fun s r => (s.step policy r).2) s

omit [Amount ν] in
theorem Cost.count_eq (h : Cost max s key now gone n) (a : Algorithm ν) :
    n = ((Request.judge key a now).crowds max s).toNat := by
  have hlive : (∃ k, s.Outdated now k) ↔
      ¬ (s.table.entries.all fun e => !e.2.isExpired now) = true := by
    simp only [Outdated, Table.get?_eq_some_iff, List.all_eq_true, Bool.not_eq_true',
      Prod.forall, not_forall, exists_prop, Bool.not_eq_false]
  cases h with
  | tracked hkey => simp [Request.crowds, hkey]
  | free hkey hroom =>
    have hsize : (s.size == max) = false := beq_eq_false_iff_ne.2 (Nat.ne_of_lt hroom)
    simp [Request.crowds, hsize]
  | swept hkey hfull hold => simp [Request.crowds, Bool.eq_false_iff.2 (hlive.1 hold)]
  | evicted v hkey hfull hnone hv =>
    have hall : (s.table.entries.all fun e => !e.2.isExpired now) = true :=
      not_not.1 fun h => not_exists.2 hnone (hlive.2 h)
    simp [Request.crowds, hkey, hfull, hall]

theorem size_step_le (hmax : 0 < max) (h : s.size ≤ max) (r : Request ν) :
    (s.step (.leastRecent max) r).2.size ≤ max := by
  cases r with
  | judge key a now => exact size_judge_le hmax h key a now
  | status key rule now => exact h
  | removeStarting start =>
    exact Nat.le_trans (Table.size_le_of_has fun _ => Table.has_of_has_filter) h
  | clear => exact Nat.zero_le _

theorem evictions_step (hmax : 0 < max) (h : s.size ≤ max) (r : Request ν) :
    (s.step (.leastRecent max) r).2.evictions = s.evictions + (r.crowds max s).toNat := by
  cases r with
  | judge key a now =>
    obtain ⟨gone, n, hcost, -, hevictions⟩ := cost_judge hmax h key a now
    rw [← hcost.count_eq a]
    exact hevictions
  | status key rule now => rfl
  | removeStarting start => rfl
  | clear => rfl

/-- By induction on the requests, from slots that are not too many. -/
theorem size_run_le (hmax : 0 < max) (h : s.size ≤ max) (rs : List (Request ν)) :
    (s.run (.leastRecent max) rs).size ≤ max := by
  induction rs generalizing s with
  | nil => exact h
  | cons r rs ih => exact ih (size_step_le hmax h r)

theorem evictions_run (hmax : 0 < max) (h : s.size ≤ max) (rs : List (Request ν)) :
    (s.run (.leastRecent max) rs).evictions = s.evictions + givenUp max s rs := by
  induction rs generalizing s with
  | nil => rfl
  | cons r rs ih =>
    calc (run (.leastRecent max) (s.step (.leastRecent max) r).2 rs).evictions
        = (s.step (.leastRecent max) r).2.evictions +
          givenUp max (s.step (.leastRecent max) r).2 rs :=
          ih (size_step_le hmax h r)
      _ = s.evictions + (r.crowds max s).toNat +
        givenUp max (s.step (.leastRecent max) r).2 rs := by
          rw [evictions_step hmax h r]
      _ = s.evictions + givenUp max s (r :: rs) := Nat.add_assoc _ _ _

/-- **Bounded, at the least cost.** After any requests at any clock readings there are no more keys
than there is room for, and so many were given up as requests of new keys found the slots full of
what still means something. Whatever is asked next, a request of a key leaves it there and costs the
others what `Cost` says and no more; a status changes nothing; and who asks to forget keys takes
nothing else. -/
theorem bounded_with_least_eviction (max : Nat) (hmax : 0 < max) (rs : List (Request ν)) :
    let s := (empty : Slots ν).run (.leastRecent max) rs
    s.size ≤ max ∧ s.evictions = givenUp max .empty rs ∧
    (∀ key a now,
      let s' := (s.step (.leastRecent max) (.judge key a now)).2
      s'.table.has key = true ∧ ∃ gone n, Cost max s key now gone n ∧ s.Loses s' key gone ∧
        s'.evictions = s.evictions + n) ∧
    (∀ key rule now, (s.step (.leastRecent max) (.status key rule now)).2 = s) ∧
    (∀ start,
      let s' := (s.step (.leastRecent max) (.removeStarting start)).2
      s'.evictions = s.evictions ∧
        ∀ k, s'.table.get? k = if startsWith start k then none else s.table.get? k) ∧
    (s.step (.leastRecent max) .clear).2.evictions = s.evictions ∧
    ∀ k, (s.step (.leastRecent max) .clear).2.table.get? k = none := by
  intro s
  have hsize : s.size ≤ max := size_run_le hmax (Nat.zero_le _) rs
  have hevictions : s.evictions = 0 + givenUp max .empty rs := evictions_run hmax (Nat.zero_le _) rs
  refine ⟨hsize, hevictions.trans (Nat.zero_add _), fun key a now => ?_,
    fun key rule now => rfl, fun start => ?_, ?_⟩
  · exact ⟨has_judge_self _ _ _ _ _, cost_judge hmax hsize key a now⟩
  · refine ⟨rfl, fun k => ?_⟩
    show (s.table.filter fun k _ => !startsWith start k).get? k = _
    rw [Table.get?_filter]
    cases startsWith start k <;> cases s.table.get? k <;> rfl
  · exact ⟨rfl, fun k => rfl⟩

end Requests

/-- Three keys in slots for two: `b` is used later than `a` at first, but then `a` is used again. -/
def threeKeys : List (Request Rat) :=
  [.judge "a" (.window ⟨2, 60⟩) (.ofMillis 0), .judge "b" (.window ⟨2, 60⟩) (.ofMillis 1000),
    .status "b" ⟨none, .window ⟨2, 60⟩⟩ (.ofMillis 2000),
    .judge "a" (.window ⟨2, 60⟩) (.ofMillis 3000),
    .judge "c" (.window ⟨2, 60⟩) (.ofMillis 4000)]

/-- The third key costs `b` its slot. A minute after that `a` is out of date, and a fourth key costs
no other one. -/
theorem bounded_with_least_eviction_threeKeys :
    let s := (empty : Slots Rat).run (.leastRecent 2) threeKeys
    let s' := (s.step (.leastRecent 2) (.judge "d" (.window ⟨2, 60⟩) (.ofMillis 63500))).2
    0 < 2 ∧ s.size ≤ 2 ∧ s.evictions = givenUp 2 .empty threeKeys ∧
    givenUp 2 (empty : Slots Rat) threeKeys = 1 ∧
      (s.table.has "a" = true ∧ s.table.has "b" = false ∧ s.table.has "c" = true) ∧
      (s'.table.has "d" = true ∧ ∃ gone n, Cost 2 s "d" (.ofMillis 63500) gone n ∧
        s.Loses s' "d" gone ∧
        s'.evictions = s.evictions + n) ∧
      (s'.table.has "a" = false ∧ s'.table.has "c" = true ∧ s'.evictions = 1) := by
  intro s s'
  obtain ⟨hsize, hevictions, hjudge, -⟩ := bounded_with_least_eviction 2 (by decide) threeKeys
  exact ⟨by decide, hsize, hevictions, by decide, by decide, hjudge "d" _ _, by decide⟩

end Slots

end GuardedWrites

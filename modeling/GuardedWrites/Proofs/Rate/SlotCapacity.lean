import GuardedWrites.Proofs.Rate.Idle
import Mathlib.Data.List.Perm.Subperm

/-!
# Room in the slots

Slots have room for so many keys. A new key that finds them full first drops everything out of date,
and gives up a key only if that was not enough. As long as nothing is given up, a request sees of a
slot only whether it still means something.

* `Slots.alive?` — the slot of a key, if it still means something; `Slots.slotFor_eq`,
  `Slots.status_eq` say that requests see nothing else;
* `Slots.makeRoom_of_evictions` — making room without giving up a key drops at most what is out of
  date;
* `Slots.evictions_makeRoom_iff` — when a key is given up;
* `Slots.judge_fst`, `Slots.alive?_judge` — what a request then answers and leaves behind;
* `Slots.size_judge_le` — there are never more keys than there is room for.
-/

namespace GuardedWrites

namespace Table

variable {κ α β : Type} [DecidableEq κ]

theorem has_iff_mem (t : Table κ α) (k : κ) : t.has k = true ↔ k ∈ t.entries.map Prod.fst := by
  rw [has, Option.isSome_iff_ne_none, get?, ne_eq, Entries.get?_eq_none_iff, not_not]

theorem has_insert_self (t : Table κ α) (k : κ) (a : α) : (t.insert k a).has k = true := by
  rw [has, get?_insert, if_pos rfl]
  rfl

/-- A table whose keys are all in another one is no larger. -/
theorem size_le_of_has {t : Table κ α} {t' : Table κ β}
    (h : ∀ k, t.has k = true → t'.has k = true) :
    t.size ≤ t'.size := by
  have hsub : t.entries.map Prod.fst ⊆ t'.entries.map Prod.fst := by
    intro k hk
    exact (t'.has_iff_mem k).1 (h k ((t.has_iff_mem k).2 hk))
  have hle := (t.distinct.subperm hsub).length_le
  rwa [List.length_map, List.length_map] at hle

/-- And it is smaller if one key is missing. -/
theorem size_lt_of_has {t : Table κ α} {t' : Table κ β} (h : ∀ k, t.has k = true → t'.has k = true)
    {k : κ} (hk : t.has k = false) (hk' : t'.has k = true) :
    t.size < t'.size := by
  have hnew : k ∉ t.entries.map Prod.fst := fun hm => by simp [(t.has_iff_mem k).2 hm] at hk
  have hsub : k :: t.entries.map Prod.fst ⊆ t'.entries.map Prod.fst := by
    intro x hx
    refine (t'.has_iff_mem x).1 ?_
    rcases List.mem_cons.1 hx with rfl | hx
    · exact hk'
    · exact h x ((t.has_iff_mem x).2 hx)
  have hle := ((List.nodup_cons.2 ⟨hnew, t.distinct⟩).subperm hsub).length_le
  rwa [List.length_cons, List.length_map, List.length_map] at hle

theorem has_of_has_filter {t : Table κ α} {p : κ → α → Bool} {k : κ}
    (h : (t.filter p).has k = true) :
    t.has k = true := by
  rw [has, get?_filter] at h
  cases hg : t.get? k with
  | none => simp [hg] at h
  | some a => simp [has, hg]

theorem has_of_has_erase {t : Table κ α} {v k : κ} (h : (t.erase v).has k = true) :
    t.has k = true :=
  has_of_has_filter h

end Table

namespace EvictionPolicy

/-- Among candidates there is one that the policy names, and none was touched before it. -/
theorem exists_oldest {cs : List Candidate} (h : cs ≠ []) :
    ∃ c ∈ cs, oldest? cs = some c ∧ ∀ d ∈ cs, c.lastAccess ≤ d.lastAccess := by
  induction cs with
  | nil => exact absurd rfl h
  | cons c rest ih =>
    cases rest with
    | nil => exact ⟨c, .head _, rfl, fun d hd => List.mem_singleton.1 hd ▸ Moment.le_refl _⟩
    | cons d rest =>
      obtain ⟨x, hx, holdest, hmin⟩ := ih (List.cons_ne_nil _ _)
      by_cases hlt : x.lastAccess < c.lastAccess
      · refine ⟨x, .tail _ hx, by rw [oldest?, holdest]; exact if_pos hlt, fun y hy => ?_⟩
        rcases List.mem_cons.1 hy with rfl | hy
        · exact Int.le_of_lt hlt
        · exact hmin y hy
      · refine ⟨c, .head _, by rw [oldest?, holdest]; exact if_neg hlt, fun y hy => ?_⟩
        rcases List.mem_cons.1 hy with rfl | hy
        · exact Moment.le_refl _
        · exact Moment.le_trans (Int.not_lt.1 hlt) (hmin y hy)

end EvictionPolicy

namespace Slots

variable {ν : Type} {s s' : Slots ν} {policy : EvictionPolicy} {max : Nat} {k key : String}
variable {now t t' : Moment}

/-! ### What still means something -/

/-- The slot of a key, if it still means something. -/
def alive? (s : Slots ν) (key : String) (now : Moment) : Option (Slot ν) :=
  (s.dropExpired now).table.get? key

theorem alive?_eq (s : Slots ν) (key : String) (now : Moment) :
    s.alive? key now = (s.table.get? key).filter fun slot => !slot.isExpired now :=
  get?_dropExpired s now key

theorem alive?_congr (h : s.table.get? key = s'.table.get? key) (now : Moment) :
    s.alive? key now = s'.alive? key now := by
  rw [alive?_eq, alive?_eq, h]

/-- What means nothing now means nothing later. -/
theorem alive?_later (s : Slots ν) (key : String) (h : t ≤ t') :
    s.alive? key t' = (s.alive? key t).filter fun slot => !slot.isExpired t' := by
  rw [alive?_eq, alive?_eq, Option.filter_filter]
  refine congrArg (fun p => (s.table.get? key).filter p) (funext fun slot => ?_)
  by_cases hd : slot.isExpired t = true
  · have hle : slot.ttl ≤ slot.lastAccess.elapsed t := of_decide_eq_true hd
    have hlater : slot.isExpired t' = true :=
      decide_eq_true (Span.le_trans hle (Moment.elapsed_le_elapsed (Moment.le_refl _) h))
    simp [hlater]
  · simp [hd]

/-- Slots that agree on what means something at `t` agree on it later. -/
theorem alive?_mono (h : s.alive? key t = s'.alive? key t) (ht : t ≤ t') :
    s.alive? key t' = s'.alive? key t' := by
  rw [alive?_later s key ht, alive?_later s' key ht, h]

theorem alive?_dropExpired (s : Slots ν) (key : String) (now : Moment) :
    (s.dropExpired now).alive? key now = s.alive? key now := by
  rw [alive?_later s key (Moment.le_refl now), alive?_eq]
  rfl

/-- What means something is there. -/
theorem has_of_alive? (h : (s.alive? key now).isSome = true) :
    s.table.has key = true := Table.has_of_has_filter h

/-! ### Room -/

theorem size_dropExpired_le (s : Slots ν) (now : Moment) : (s.dropExpired now).size ≤ s.size :=
  Table.size_le_of_has fun _ h => Table.has_of_has_filter h

/-- Giving up one key leaves everything, or counts and drops a key. -/
theorem evictOne_cases (s : Slots ν) (policy : EvictionPolicy) :
    s.evictOne policy = s ∨ ∃ v, s.evictOne policy = ⟨s.table.erase v, s.evictions + 1⟩ := by
  unfold evictOne
  split
  · rename_i v _
    split
    · exact .inr ⟨v, rfl⟩
    · exact .inl rfl
  · exact .inl rfl

/-- Making room leaves everything, or drops what is out of date, and then perhaps gives up one
key. -/
theorem makeRoom_cases (s : Slots ν) (policy : EvictionPolicy) (key : String) (now : Moment) :
    s.makeRoom policy key now = s ∨ s.makeRoom policy key now = s.dropExpired now ∨
      ∃ v, s.makeRoom policy key now = ⟨(s.dropExpired now).table.erase v, s.evictions + 1⟩ := by
  unfold makeRoom
  split
  · exact .inl rfl
  · right
    dsimp only
    split
    · exact evictOne_cases (s.dropExpired now) policy
    · exact .inl rfl

theorem evictions_le_makeRoom (s : Slots ν) (policy : EvictionPolicy) (key : String)
    (now : Moment) :
    s.evictions ≤ (s.makeRoom policy key now).evictions := by
  rcases makeRoom_cases s policy key now with hs | hs | ⟨v, hs⟩
  · exact Nat.le_of_eq (congrArg Slots.evictions hs.symm)
  · rw [hs]
    exact Nat.le_refl _
  · rw [hs]
    exact Nat.le_succ _

/-- Making room without giving up a key leaves everything, or drops what is out of date. -/
theorem makeRoom_of_evictions (h : (s.makeRoom policy key now).evictions = s.evictions) :
    s.makeRoom policy key now = s ∨ s.makeRoom policy key now = s.dropExpired now := by
  rcases makeRoom_cases s policy key now with hs | hs | ⟨v, hs⟩
  · exact .inl hs
  · exact .inr hs
  · rw [hs] at h
    exact absurd h (Nat.succ_ne_self _)

theorem has_of_has_makeRoom (h : (s.makeRoom policy key now).table.has k = true) :
    s.table.has k = true := by
  rcases makeRoom_cases s policy key now with hs | hs | ⟨v, hs⟩
  · rwa [hs] at h
  · rw [hs] at h
    exact Table.has_of_has_filter h
  · rw [hs] at h
    exact Table.has_of_has_filter (Table.has_of_has_erase h)

theorem alive?_makeRoom (h : (s.makeRoom policy key now).evictions = s.evictions) (k : String) :
    (s.makeRoom policy key now).alive? k now = s.alive? k now := by
  rcases makeRoom_of_evictions h with hs | hs
  · rw [hs]
  · rw [hs, alive?_dropExpired]

/-- A key that is there, and no other was used before it. -/
def Oldest (s : Slots ν) (key : String) : Prop :=
  ∃ slot, s.table.get? key = some slot ∧
    ∀ k slot', s.table.get? k = some slot' → slot.lastAccess ≤ slot'.lastAccess

theorem Oldest.has (h : s.Oldest key) : s.table.has key = true := by
  obtain ⟨slot, hslot, -⟩ := h
  rw [Table.has, hslot]
  rfl

/-- The usual policy gives up the key that was used longest ago as soon as it is asked to, if there
is one. -/
theorem exists_evictOne (h : 0 < s.size) (max : Nat) :
    ∃ v, s.Oldest v ∧ s.evictOne (.leastRecent max) = ⟨s.table.erase v, s.evictions + 1⟩ := by
  have hne : s.candidates ≠ [] := by
    intro hnil
    have hlength : s.candidates.length = s.size := List.length_map _
    rw [hnil] at hlength
    exact absurd hlength (Nat.ne_of_lt h)
  obtain ⟨c, hc, holdest, hmin⟩ := EvictionPolicy.exists_oldest hne
  have hv : s.Oldest c.key := by
    obtain ⟨⟨k, slot⟩, he, rfl⟩ := List.mem_map.1 hc
    refine ⟨slot, (s.table.get?_eq_some_iff _ _).2 he, fun k' slot' hslot' => ?_⟩
    exact hmin ⟨k', slot'.lastAccess⟩
      (List.mem_map.2 ⟨(k', slot'), (s.table.get?_eq_some_iff _ _).1 hslot', rfl⟩)
  refine ⟨c.key, hv, ?_⟩
  have hvictim : (EvictionPolicy.leastRecent max).victim? s.candidates = some c.key :=
    congrArg (Option.map Candidate.key) holdest
  simp only [evictOne, hvictim, hv.has, if_true]

/-- A key is given up exactly for a new one that finds the slots full of what still means
something. -/
theorem evictions_makeRoom_iff (hmax : 0 < max) (s : Slots ν) (key : String) (now : Moment) :
    (s.makeRoom (.leastRecent max) key now).evictions = s.evictions ↔
      s.table.has key = true ∨ (s.dropExpired now).size < max := by
  have hfull : ∀ n, (EvictionPolicy.leastRecent max).shouldEvict n = true ↔ max ≤ n :=
      fun n => decide_eq_true_iff
  have hle := size_dropExpired_le s now
  by_cases hhas : s.table.has key = true
  · simp [makeRoom, hhas]
  by_cases hroom : (s.dropExpired now).size < max
  · refine ⟨fun _ => .inr hroom, fun _ => ?_⟩
    unfold makeRoom
    split
    · rfl
    · have hlive :
          ¬ (EvictionPolicy.leastRecent max).shouldEvict (s.dropExpired now).size = true := by
        rw [hfull]
        omega
      dsimp only
      rw [if_neg hlive]
      rfl
  · refine ⟨fun h => ?_, fun h => absurd h (not_or.2 ⟨hhas, hroom⟩)⟩
    exfalso
    have hpos : 0 < (s.dropExpired now).size := by omega
    obtain ⟨v, -, hv⟩ := exists_evictOne hpos max
    have hsize : (EvictionPolicy.leastRecent max).shouldEvict s.size = true :=
        (hfull _).2 (by omega)
    have hlive : (EvictionPolicy.leastRecent max).shouldEvict (s.dropExpired now).size = true :=
      (hfull _).2 (by omega)
    simp only [makeRoom, hhas, hsize, hlive, Bool.not_true, Bool.or_false, if_true, hv] at h
    exact absurd h (Nat.succ_ne_self _)

theorem makeRoom_empty (hmax : 0 < max) (key : String) (now : Moment) :
    (empty : Slots ν).makeRoom (.leastRecent max) key now = empty := by
  have hroom : (EvictionPolicy.leastRecent max).shouldEvict 0 = false :=
      decide_eq_false (Nat.not_le.2 hmax)
  show (if (!(EvictionPolicy.leastRecent max).shouldEvict 0) = true then _ else _) = _
  rw [hroom]
  rfl

/-- After room was made for a key it is there, or there is a place for it. -/
theorem has_or_size_lt_makeRoom (hmax : 0 < max) (h : s.size ≤ max) (key : String) (now : Moment) :
    (s.makeRoom (.leastRecent max) key now).table.has key = true ∨
      (s.makeRoom (.leastRecent max) key now).size < max := by
  have hfull : ∀ n, (EvictionPolicy.leastRecent max).shouldEvict n = true ↔ max ≤ n :=
      fun n => decide_eq_true_iff
  have hle := size_dropExpired_le s now
  unfold makeRoom
  split
  · rename_i hroom
    rcases Bool.or_eq_true _ _ |>.mp hroom with hhas | hnot
    · exact .inl hhas
    · right
      rw [Bool.not_eq_true', ← Bool.not_eq_true, hfull] at hnot
      omega
  · right
    dsimp only
    split
    · rename_i hlive
      rw [hfull] at hlive
      obtain ⟨v, hv, hevict⟩ := exists_evictOne (s := s.dropExpired now) (by omega) max
      rw [hevict]
      have hlt : ((s.dropExpired now).table.erase v).size < (s.dropExpired now).table.size := by
        refine Table.size_lt_of_has (fun _ => Table.has_of_has_erase) (k := v) ?_ hv.has
        rw [Table.has, Table.get?_erase, if_pos rfl]
        rfl
      exact Nat.lt_of_lt_of_le hlt (Nat.le_trans hle h)
    · rename_i hlive
      rw [hfull] at hlive
      omega

/-! ### Requests -/

section Requests

variable [Amount ν] {a : Algorithm ν}

/-- The slot after a request. -/
def after (slot : Slot ν) (a : Algorithm ν) (now : Moment) : Slot ν :=
  ⟨(slot.state.judge a now).2, slot.lastAccess.latest now, a.ttl⟩

/-- The slot of a key is the one that still means something, or a fresh one. -/
theorem slotFor_eq (s : Slots ν) (key : String) (a : Algorithm ν) (now : Moment) :
    s.slotFor key a now = (s.alive? key now).getD ⟨.fresh a now, now, a.ttl⟩ := by
  rw [alive?_eq, slotFor]
  cases s.table.get? key with
  | none => rfl
  | some slot => cases h : slot.isExpired now <;> simp [Option.filter, h]

theorem slotFor_congr (h : s.alive? key now = s'.alive? key now) (a : Algorithm ν) :
    s.slotFor key a now = s'.slotFor key a now := by
  rw [slotFor_eq, slotFor_eq, h]

/-- The counts that are read are those of the slot that a request would be judged by. -/
theorem status_eq (s : Slots ν) (key : String) (rule : Rule ν) (now : Moment) :
    s.status key rule now =
      (s.slotFor key rule.algorithm now).state.status rule.algorithm rule.label now := by
  unfold status slotFor
  cases s.table.get? key with
  | none => rfl
  | some slot => cases h : slot.isExpired now <;> simp [h]

theorem get?_judge (s : Slots ν) (policy : EvictionPolicy) (key : String) (a : Algorithm ν)
    (now : Moment) (k : String) :
    (s.judge policy key a now).2.table.get? k =
      if key = k then some (after ((s.makeRoom policy key now).slotFor key a now) a now)
      else (s.makeRoom policy key now).table.get? k :=
  Table.get?_insert _ _ _ _

theorem evictions_le_judge (s : Slots ν) (policy : EvictionPolicy) (key : String) (a : Algorithm ν)
    (now : Moment) :
    s.evictions ≤ (s.judge policy key a now).2.evictions :=
  evictions_le_makeRoom s policy key now

/-- If no key is given up, a request has the outcome of the slot. -/
theorem judge_fst (h : (s.judge policy key a now).2.evictions = s.evictions) :
    (s.judge policy key a now).1 = ((s.slotFor key a now).state.judge a now).1 := by
  rw [← slotFor_congr (alive?_makeRoom h key) a]
  rfl

/-- If no key is given up, a request changes of what means something only its own slot. -/
theorem alive?_judge (h : (s.judge policy key a now).2.evictions = s.evictions) (k : String) :
    (s.judge policy key a now).2.alive? k now =
      if key = k then (some (after (s.slotFor key a now) a now)).filter fun slot =>
        !slot.isExpired now
      else s.alive? k now := by
  rw [alive?_eq, get?_judge, slotFor_congr (alive?_makeRoom h key) a]
  split
  · rfl
  · rw [← alive?_eq, alive?_makeRoom h k]

theorem has_judge_self (s : Slots ν) (policy : EvictionPolicy) (key : String) (a : Algorithm ν)
    (now : Moment) :
    (s.judge policy key a now).2.table.has key = true :=
  Table.has_insert_self _ _ _

/-- A request leaves no key but its own that was not there before. -/
theorem has_of_has_judge (hne : key ≠ k) (h : (s.judge policy key a now).2.table.has k = true) :
    s.table.has k = true := by
  rw [Table.has, get?_judge, if_neg hne] at h
  exact has_of_has_makeRoom h

/-- There are never more keys than there is room for. -/
theorem size_judge_le (hmax : 0 < max) (h : s.size ≤ max) (key : String) (a : Algorithm ν)
    (now : Moment) :
    (s.judge (.leastRecent max) key a now).2.size ≤ max := by
  have hroom := has_or_size_lt_makeRoom hmax h key now
  have hsize : (s.judge (.leastRecent max) key a now).2.size =
      if (s.makeRoom (.leastRecent max) key now).table.has key = true
      then (s.makeRoom (.leastRecent max) key now).size
      else (s.makeRoom (.leastRecent max) key now).size + 1 := Table.size_insert _ _ _
  have hle : (s.makeRoom (.leastRecent max) key now).size ≤ max :=
    Nat.le_trans (Table.size_le_of_has fun _ => has_of_has_makeRoom) h
  rw [hsize]
  split
  · exact hle
  · exact hroom.resolve_left ‹_›

end Requests

end Slots

end GuardedWrites

import GuardedWrites.Proofs.Effect.Monitor
import Mathlib.Algebra.BigOperators.Group.Finset.Piecewise

/-!
# Counting what programs do

How often the programs of a crowd have made a call of some kind is the sum of how often each of them
has. What one of them has done is a path through it, which says how often that is as long as it
runs, and how often when it has returned.

* `Program.EndsBy` — a program that makes its calls of a kind in the step that ends it, and none
  before;
* `Program.Obeys.countP_eq_zero` — a program whose monitor allows no call of a kind makes none;
* `Crowd.sum_countP_deeds` — the count over a log, program by program;
* `Crowd.returned` — whether a program has come to its end at some point of a schedule;
  `Crowd.stands` says where each program stands then.
-/

namespace GuardedWrites

/-- A deed that makes a call of some kind. -/
def Deed.calls {S : Service} (kind : S.Request → Bool) : Deed S → Bool
  | .call r _ => kind r
  | .wait => false

namespace Program

variable {S : Service} {α β μ : Type} {kind : S.Request → Bool} {n : Nat}
variable {p q : Program S α} {ds : List (Deed S)}

/-- A program makes some calls of a kind, and none of them before it is over. -/
def EndsBy (kind : S.Request → Bool) (n : Nat) (p : Program S α) : Prop :=
  ∀ ⦃ds q⦄, p.Takes ds q → ds.countP (Deed.calls kind) = if q.isDone then n else 0

/-- The path of a single call: it is still to be made, or it has been made. -/
theorem Takes.of_ask {r : S.Request} {q : Program S (S.Reply r)} (h : (ask r).Takes ds q) :
    ds = [] ∧ q.isDone = false ∨ ∃ x, ds = [.call r x] ∧ q = .done x := by
  cases h with
  | refl => exact .inl ⟨rfl, rfl⟩
  | call h =>
    obtain ⟨rfl, rfl⟩ := h.of_done
    exact .inr ⟨_, rfl, rfl⟩

/-- The path of a program after which something is returned is one of the program itself. -/
theorem Takes.of_returning {f : α → Program S β} {q : Program S β} (h : (p.bind f).Takes ds q)
    (hf : ∀ a, (f a).isDone = true) : ∃ q', p.Takes ds q' ∧ q'.isDone = q.isDone := by
  rcases h.bind_cases with ⟨q', h', hq', rfl⟩ | ⟨ds₁, a, ds₂, rfl, h₁, h₂⟩
  · exact ⟨q', h', hq'.trans (isDone_bind hq' f).symm⟩
  · obtain ⟨b, hb, -⟩ := bind_of_isDone (hf a) Program.done
    rw [hb] at h₂
    obtain ⟨rfl, rfl⟩ := h₂.of_done
    exact ⟨.done a, by rwa [List.append_nil], rfl⟩

theorem endsBy_ask (r : S.Request) : (ask r).EndsBy kind (kind r).toNat := by
  intro ds q h
  rcases h.of_ask with ⟨rfl, hq⟩ | ⟨x, rfl, rfl⟩
  · rw [hq]
    rfl
  · cases hr : kind r <;> simp [Deed.calls, isDone, hr]

namespace EndsBy

/-- A program without such calls comes first. -/
theorem bind {f : α → Program S β} (hp : p.EndsBy kind 0)
    (hf : ∀ ds a, p.Takes ds (.done a) → (f a).EndsBy kind n) : (p.bind f).EndsBy kind n := by
  intro ds q h
  rcases h.bind_cases with ⟨q', h', hq', rfl⟩ | ⟨ds₁, a, ds₂, rfl, h₁, h₂⟩
  · rw [hp h', hq', isDone_bind hq']
    rfl
  · rw [List.countP_append, hp h₁, hf ds₁ a h₁ h₂]
    simp [isDone]

/-- After the last of them the program only returns something. -/
theorem returning {f : α → Program S β} (hp : p.EndsBy kind n) (hf : ∀ a, (f a).isDone = true) :
    (p.bind f).EndsBy kind n := by
  intro ds q h
  obtain ⟨q', h', hdone⟩ := h.of_returning hf
  rw [← hdone]
  exact hp h'

end EndsBy

/-- A program whose monitor allows no call of a kind makes none. -/
theorem Obeys.countP_eq_zero {M : Monitor S μ} {Q : μ → α → Prop} {m : μ} (hp : Obeys M Q m p)
    (hM : ∀ m r x m', M m (.call r x) m' → kind r = false) (h : p.Takes ds q) :
    ds.countP (Deed.calls kind) = 0 := by
  obtain ⟨m', haccepts, -⟩ := hp.takes h
  clear hp h
  induction ds generalizing m with
  | nil => rfl
  | cons d ds ih =>
    obtain ⟨m₁, hm₁, hrest⟩ := haccepts
    have hd : d.calls kind = false := by
      cases d with
      | call r x => exact hM m r x m₁ hm₁
      | wait => rfl
    rw [List.countP_cons_of_neg (by simp [hd]), ih hrest]

theorem Obeys.endsBy {M : Monitor S μ} {Q : μ → α → Prop} {m : μ} (hp : Obeys M Q m p)
    (hM : ∀ m r x m', M m (.call r x) m' → kind r = false) : p.EndsBy kind 0 := by
  intro ds q h
  rw [hp.countP_eq_zero hM h, ite_self]

end Program

namespace Crowd

variable {S : Service} {σ ω α : Type} {E : Setting S σ ω} {i : Nat} {log : List (Step S ω)}

/-- The programs that have done something. -/
def started (log : List (Step S ω)) : Finset Nat := (log.map (·.who)).toFinset

theorem mem_started : i ∈ started log ↔ deeds i log ≠ [] := by
  simp [started, deeds]

/-- The count of one program is how often its number stands before a deed of that kind. -/
theorem countP_deeds (f : Deed S → Bool) (i : Nat) (log : List (Step S ω)) :
    (deeds i log).countP f = ((log.filter fun e => f e.deed).map (·.who)).count i := by
  rw [deeds, List.countP_reverse, List.countP_map, List.countP_filter, List.count, List.countP_map,
    List.countP_filter]
  refine List.countP_congr fun e _ => ?_
  simp [and_comm]

/-- A count over all programs is the sum of their counts. -/
theorem sum_countP_deeds (f : Deed S → Bool) (log : List (Step S ω)) :
    ∑ i ∈ started log, (deeds i log).countP f = log.countP fun e => f e.deed := by
  have hstarted : ∀ i ∈ ((log.filter fun e => f e.deed).map (·.who) : Multiset Nat),
      i ∈ started log := by
    intro i hi
    obtain ⟨e, he, rfl⟩ := List.mem_map.1 (Multiset.mem_coe.1 hi)
    exact List.mem_toFinset.2 (List.mem_map_of_mem (List.mem_of_mem_filter he))
  have hsum := Multiset.sum_count_eq_card hstarted
  simp only [Multiset.coe_count, ← countP_deeds, Multiset.coe_card, List.length_map] at hsum
  rw [hsum, List.countP_eq_length_filter]

theorem exists_task_of_started {s : σ} {tasks : Nat → Option (Program S α)} {ms : List (Move ω)}
    (hi : i ∈ started ((start s tasks).play E ms).log) : ∃ p, tasks i = some p := by
  rcases takes_play (E := E) s tasks ms i with ⟨-, -, hdeeds⟩ | ⟨p, -, hp, -⟩
  · exact absurd hdeeds (mem_started.1 hi)
  · exact ⟨p, hp⟩

/-- A program has come to its end at some point of a schedule. -/
def returned (E : Setting S σ ω) (i : Nat) : Crowd S σ ω α → List (Move ω) → Bool
  | c, [] => (c.tasks i).any Program.isDone
  | c, mv :: ms => (c.tasks i).any Program.isDone || returned E i (c.move E mv) ms

theorem returned_concat (c : Crowd S σ ω α) (ms : List (Move ω)) (mv : Move ω) :
    returned E i c (ms ++ [mv]) =
      (returned E i c ms || ((c.play E (ms ++ [mv])).tasks i).any Program.isDone) := by
  induction ms generalizing c with
  | nil => rfl
  | cons mv' ms ih =>
    rw [List.cons_append, returned, returned, ih, Bool.or_assoc]
    rfl

/-- Where a program stands: at the end of its path, even if it was dropped there. It is over just if
it has returned. -/
def Stands (E : Setting S σ ω) (c : Crowd S σ ω α) (ms : List (Move ω)) (i : Nat)
    (p : Program S α) : Prop :=
  ∃ q, p.Takes (deeds i (c.play E ms).log) q ∧ (∀ q', (c.play E ms).tasks i = some q' → q' = q) ∧
    q.isDone = returned E i c ms

theorem stands {s : σ} {tasks : Nat → Option (Program S α)} {p : Program S α}
    (hp : tasks i = some p) (ms : List (Move ω)) :
    Stands E (start s tasks) ms i p := by
  induction ms using List.reverseRecOn with
  | nil =>
    refine ⟨p, .refl p, fun q' hq' => Option.some.inj (hq'.symm.trans hp), ?_⟩
    simp [returned, start, hp]
  | append_singleton ms mv ih =>
    obtain ⟨q, htakes, hq, hdone⟩ := ih
    -- where the program does not move, what is there afterwards was there before
    have hsame : ∀ c' : Crowd S σ ω α, (start s tasks).play E (ms ++ [mv]) = c' →
        (∀ q', c'.tasks i = some q' → q' = q) →
        deeds i c'.log = deeds i ((start s tasks).play E ms).log →
        Stands E (start s tasks) (ms ++ [mv]) i p := by
      intro c' hc' hq' hdeeds
      refine ⟨q, by rwa [hc', hdeeds], by rwa [hc'], ?_⟩
      rw [returned_concat, hc', ← hdone]
      cases ht : c'.tasks i with
      | none => simp
      | some q' =>
        rw [hq' q' ht]
        simp
    have hplay := play_concat (E := E) (start s tasks) ms mv
    rcases ((start s tasks).play E ms).move_cases (E := E) mv with
      hm | ⟨who, hm⟩ | ⟨who, o, q₁, d, q₂, s', rfl, ht, hnext, hm⟩
    · exact hsame _ (hplay.trans hm) hq rfl
    · exact hsame _ (hplay.trans hm) (fun q' hq' => hq q' (tasks_forget _ who i hq')) rfl
    · by_cases hi : i = who
      · subst hi
        obtain rfl := hq q₁ ht
        have hplay := hplay.trans hm
        refine ⟨q₂, ?_, fun q' hq' => ?_, ?_⟩
        · rw [hplay, advance, deeds_cons_self]
          exact htakes.concat hnext
        · rw [hplay, tasks_advance_self, Option.some.injEq] at hq'
          exact hq'.symm
        · rw [returned_concat, hplay, tasks_advance_self, ← hdone, Program.isDone_of_next? hnext]
          rfl
      · refine hsame _ (hplay.trans hm) (fun q' hq' => hq q' ?_)
          (deeds_cons_of_ne (fun h => hi h.symm) _)
        rwa [tasks_advance_of_ne _ hi] at hq'

end Crowd

end GuardedWrites

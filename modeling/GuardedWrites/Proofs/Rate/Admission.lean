import GuardedWrites.Proofs.Time.Elapsed
import GuardedWrites.Rate.Window

/-!
# What a window admits

A window forgets the moments that are a whole window old, and still judges as if it had kept a log
of all that it ever admitted. So no interval of the length of the window holds more admissions than
the limit.

* `Window.prune_entries` — what is left after pruning are the moments that are alive;
* `Window.Recalls` — a window counts what a log of its admissions would count; `Recalls.hit` is the
  step;
* `Window.Sparse` — no interval of the length of the window holds more than the limit;
  `Recalls.sparse_hit` is the step.
-/

namespace GuardedWrites

theorem Moment.insertInto_perm (t : Moment) (ts : List Moment) :
    (t.insertInto ts).Perm (t :: ts) := by
  induction ts with
  | nil => exact .refl _
  | cons a rest ih =>
    by_cases h : a ≤ t
    · simp only [insertInto, h, if_true]
      exact (ih.cons a).trans (.swap t a rest)
    · simp only [insertInto, h, if_false]
      exact .refl _

namespace Window

variable {w w' : Window} {l : WindowLimit} {d : Span} {now now' t t' : Moment}
variable {admitted : List Moment}

theorem ext_entries (h : w.entries = w'.entries) : w = w' := by
  cases w
  cases w'
  cases h
  rfl

/-! ### Pruning -/

/-- In ascending order the moments past their time stand first: dropping them until one is alive
drops all. -/
theorem dropWhile_eq_filter {ts : List Moment} (h : ts.Pairwise (· ≤ ·)) (d : Span) (now : Moment) :
    ts.dropWhile (fun a => d ≤ a.elapsed now) = ts.filter fun a => a.elapsed now < d := by
  induction ts with
  | nil => rfl
  | cons a rest ih =>
    obtain ⟨ha, hr⟩ := List.pairwise_cons.1 h
    by_cases hd : d ≤ a.elapsed now
    · have hn : ¬ a.elapsed now < d := Span.not_lt.2 hd
      simp only [List.dropWhile_cons, List.filter_cons, hd, hn, decide_true, decide_false, if_true]
      exact ih hr
    · have hall : ∀ x ∈ a :: rest, x.elapsed now < d := by
        intro x hx
        have hle : a ≤ x := by
          rcases List.mem_cons.1 hx with rfl | hx
          · exact Moment.le_refl x
          · exact ha x hx
        exact Span.lt_of_le_of_lt (Moment.elapsed_le_elapsed hle (Moment.le_refl now))
          (Span.not_le.1 hd)
      rw [List.filter_eq_self.2 fun x hx => decide_eq_true (hall x hx), List.dropWhile_cons,
        if_neg (by simpa using hd)]

theorem prune_entries (w : Window) (d : Span) (now : Moment) :
    (w.prune d now).entries = w.live d now :=
  dropWhile_eq_filter w.sorted d now

/-- What is alive later is alive already. -/
theorem live_prune (w : Window) (d : Span) (h : now ≤ now') :
    (w.prune d now).live d now' = w.live d now' := by
  unfold live
  rw [prune_entries, live, List.filter_filter]
  refine List.filter_congr fun a _ => ?_
  have hle : a.elapsed now ≤ a.elapsed now' := Moment.elapsed_le_elapsed (Moment.le_refl a) h
  by_cases hd : a.elapsed now' < d
  · simp [hd, Span.lt_of_le_of_lt hle hd]
  · simp [hd]

theorem length_live_record (w : Window) (t : Moment) (d : Span) (now : Moment) :
    ((w.record t).live d now).length = (if t.elapsed now < d then 1 else 0) +
      (w.live d now).length := by
  unfold live record
  rw [((Moment.insertInto_perm t w.entries).filter _).length_eq, List.filter_cons]
  by_cases h : t.elapsed now < d
  · simp [h, Nat.add_comm]
  · simp [h]

/-! ### Hits -/

theorem hit_of_lt (h : (w.live l.window now).length < l.max) :
    w.hit l now = (.allow (l.max - (w.live l.window now).length - 1),
      (w.prune l.window now).record now) := by
  simp only [hit, prune_entries, h, if_true]

theorem hit_of_not_lt (h : ¬ (w.live l.window now).length < l.max) :
    w.hit l now = (.deny (wait (w.live l.window now).head? l.window now),
      w.prune l.window now) := by
  simp only [hit, prune_entries, h, if_false]

/-- Two windows with the same moments alive judge alike and are the same afterwards. -/
theorem hit_congr (h : w.live l.window now = w'.live l.window now) :
    w.hit l now = w'.hit l now := by
  have hp : w.prune l.window now = w'.prune l.window now :=
      ext_entries (by rw [prune_entries, prune_entries, h])
  simp only [hit, hp]

theorem status_congr (h : w.live l.window now = w'.live l.window now) (label : String) :
    w.status l label now = w'.status l label now := by
  simp only [status, h]

/-- After a hit a window holds moments that it held before, and the moment of the hit. -/
theorem mem_hit {a : Moment} (h : a ∈ (w.hit l now).2.entries) : a = now ∨ a ∈ w.entries := by
  have hkept : ∀ x, x ∈ (w.prune l.window now).entries → x ∈ w.entries := by
    intro x hx
    rw [prune_entries] at hx
    exact (List.mem_filter.1 hx).1
  by_cases hlt : (w.live l.window now).length < l.max
  · rw [hit_of_lt hlt] at h
    rcases Moment.mem_insertInto.1 h with rfl | h
    · exact .inl rfl
    · exact .inr (hkept a h)
  · rw [hit_of_not_lt hlt] at h
    exact .inr (hkept a h)

/-! ### The log of admissions -/

/-- From `t` on a window counts what a log of all that it has admitted would count, the latest
admission first. -/
structure Recalls (l : WindowLimit) (w : Window) (admitted : List Moment) (t : Moment) : Prop where
  past : ∀ a ∈ admitted, a ≤ t
  counts : ∀ now, t ≤ now →
    (w.live l.window now).length = admitted.countP fun a => a.elapsed now < l.window

/-- The log after a hit. -/
def logged (o : Outcome) (now : Moment) (admitted : List Moment) : List Moment :=
  if o.allowed then now :: admitted else admitted

/-- No interval of the length of the window holds more admissions than the limit. -/
def Sparse (l : WindowLimit) (admitted : List Moment) : Prop :=
  ∀ start : Moment, (admitted.countP fun a => start ≤ a ∧ a < start.later l.window) ≤ l.max

theorem recalls_empty (l : WindowLimit) (t : Moment) : Recalls l .empty [] t :=
  ⟨fun _ h => absurd h List.not_mem_nil, fun _ _ => rfl⟩

theorem Recalls.mono (h : Recalls l w admitted t) (ht : t ≤ t') : Recalls l w admitted t' where
  past a ha := Moment.le_trans (h.past a ha) ht
  counts now hn := h.counts now (Moment.le_trans ht hn)

theorem Recalls.hit (h : Recalls l w admitted t) (ht : t ≤ now) :
    Recalls l (w.hit l now).2 (logged (w.hit l now).1 now admitted) now := by
  by_cases hlt : (w.live l.window now).length < l.max
  · rw [hit_of_lt hlt]
    refine ⟨fun a ha => ?_, fun later hl => ?_⟩
    · rcases List.mem_cons.1 ha with rfl | ha
      · exact Moment.le_refl a
      · exact Moment.le_trans (h.past a ha) ht
    · show _ = List.countP _ (now :: admitted)
      rw [length_live_record, live_prune w l.window hl, h.counts later (Moment.le_trans ht hl),
        List.countP_cons, Nat.add_comm]
      simp
  · rw [hit_of_not_lt hlt]
    refine ⟨(h.mono ht).past, fun later hl => ?_⟩
    show _ = List.countP _ admitted
    rw [live_prune w l.window hl, h.counts later (Moment.le_trans ht hl)]

/-- A hit is admitted only if fewer than the limit are alive, and all that is in one interval with
it is. -/
theorem Recalls.sparse_hit (h : Recalls l w admitted t) (hs : Sparse l admitted) (ht : t ≤ now) :
    Sparse l (logged (w.hit l now).1 now admitted) := by
  by_cases hlt : (w.live l.window now).length < l.max
  · rw [hit_of_lt hlt]
    intro start
    show List.countP _ (now :: admitted) ≤ l.max
    rw [List.countP_cons]
    by_cases hin : start ≤ now ∧ now < start.later l.window
    · have hle : (admitted.countP fun a => start ≤ a ∧ a < start.later l.window) ≤
          admitted.countP fun a => a.elapsed now < l.window := by
        refine List.countP_mono_left fun a _ ha => ?_
        have ha : start ≤ a ∧ a < start.later l.window := of_decide_eq_true ha
        exact decide_eq_true (Moment.elapsed_lt_of_lt_later ha.1 hin.1 hin.2)
      rw [← h.counts now ht] at hle
      simp only [hin, and_self, decide_true, if_true]
      omega
    · simp only [hin, decide_false]
      exact hs start
  · rw [hit_of_not_lt hlt]
    exact hs

end Window

end GuardedWrites

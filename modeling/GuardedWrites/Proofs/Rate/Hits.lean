import GuardedWrites.Proofs.Rate.Admission

/-!
# Hits on a window, one after another

A window starts empty and is hit again and again, the clock never stepping back. It decides as a
full log of its admissions would decide, although it forgets most of them. And the wait that it
answers to a denied hit is exact: nothing is admitted before it is over, and the first hit after it
is.

* `Window.after`, `Window.outcomes`, `Window.admitted` — what some hits make of a window, what is
  said about them, and which of them are admitted;
* `Window.Recalls.after` — a window still counts what its log would count;
* `Window.hits_follow_log` — a hit is judged by the admissions of the trailing window, and by
  nothing else;
* `Window.Full` — a window in which no hit has room before a moment; `Full.after` says that hits
  before it change nothing;
* `Window.denied_until_wait_is_over` — the wait is exact.
-/

namespace GuardedWrites

namespace Window

variable {l : WindowLimit} {w : Window} {t t' now : Moment} {ts us log : List Moment}

/-- The window after some hits. -/
def after (l : WindowLimit) (w : Window) (ts : List Moment) : Window :=
  ts.foldl (fun w t => (w.hit l t).2) w

/-- What is said about some hits, in their order. -/
def outcomes (l : WindowLimit) : Window → List Moment → List Outcome
  | _, [] => []
  | w, t :: ts => (w.hit l t).1 :: outcomes l (w.hit l t).2 ts

/-- The hits that are admitted, in their order. -/
def admitted (l : WindowLimit) : Window → List Moment → List Moment
  | _, [] => []
  | w, t :: ts =>
    if (w.hit l t).1.allowed then t :: admitted l (w.hit l t).2 ts else admitted l (w.hit l t).2 ts

/-! ### The log -/

/-- An age within the length of the window, reckoned without the bound of a span. -/
theorem elapsed_lt_iff {a : Moment} (h : a ≤ now) (d : Span) :
    a.elapsed now < d ↔ now < a.later d := by
  have h : a.nanos ≤ now.nanos := h
  have hd := d.le_limit
  show min (now.nanos - a.nanos).toNat spanLimit < d.nanos ↔ now.nanos < a.nanos + d.nanos
  omega

theorem reverse_admitted (l : WindowLimit) (w : Window) (t : Moment) (ts log : List Moment) :
    (admitted l w (t :: ts)).reverse ++ log =
      (admitted l (w.hit l t).2 ts).reverse ++ logged (w.hit l t).1 t log := by
  rw [admitted, logged]
  split
  · rw [List.reverse_cons, List.append_assoc, List.singleton_append]
  · rfl

/-- After any hits a window counts what the log of all its admissions would count. -/
theorem Recalls.after (h : Recalls l w log t) (hts : (t :: ts).Pairwise (· ≤ ·))
    (hnow : ∀ x ∈ t :: ts, x ≤ now) :
    Recalls l (after l w ts) ((admitted l w ts).reverse ++ log) now := by
  induction ts generalizing w t log with
  | nil => exact h.mono (hnow t (.head _))
  | cons t' ts ih =>
    obtain ⟨hle, hts⟩ := List.pairwise_cons.1 hts
    rw [reverse_admitted]
    exact ih (h.hit (hle t' (.head _))) hts fun x hx => hnow x (.tail _ hx)

/-- No interval of the length of the window holds more admissions than the limit, after any hits. -/
theorem Recalls.sparse_after (h : Recalls l w log t) (hs : Sparse l log)
    (hts : (t :: ts).Pairwise (· ≤ ·)) :
    Sparse l ((admitted l w ts).reverse ++ log) := by
  induction ts generalizing w t log with
  | nil => exact hs
  | cons t' ts ih =>
    obtain ⟨hle, hts⟩ := List.pairwise_cons.1 hts
    rw [reverse_admitted]
    exact ih (h.hit (hle t' (.head _))) (h.sparse_hit hs (hle t' (.head _))) hts

theorem recalls_after (hts : ts.Pairwise (· ≤ ·)) (hnow : ∀ x ∈ ts, x ≤ now) :
    Recalls l (Window.after l .empty ts) (admitted l .empty ts).reverse now := by
  cases ts with
  | nil => exact recalls_empty l now
  | cons t ts =>
    have hafter := ((recalls_empty l t).hit (Moment.le_refl t)).after hts hnow
    rwa [← reverse_admitted, List.append_nil] at hafter

theorem sparse_after (hts : ts.Pairwise (· ≤ ·)) : Sparse l (admitted l .empty ts).reverse := by
  obtain ⟨first, hfirst⟩ := Moment.exists_first hts
  have hsparse := (recalls_empty l first).sparse_after (fun _ => Nat.zero_le _) hfirst
  rwa [List.append_nil] at hsparse

/-! ### Denied hits -/

/-- What is said about a hit, after hits that leave what is alive as it was. -/
theorem outcomes_congr {w' : Window}
    (h : ∀ now, t ≤ now → w.live l.window now = w'.live l.window now) (hts : ∀ x ∈ ts, t ≤ x) :
    outcomes l w ts = outcomes l w' ts := by
  cases ts with
  | nil => rfl
  | cons t' ts => rw [outcomes, outcomes, hit_congr (h t' (hts t' (.head _)))]

/-- A denied hit leaves later decisions as if it had not happened. -/
theorem outcomes_of_denied (hts : ∀ x ∈ ts, t ≤ x) (hd : (w.hit l t).1.allowed = false) :
    outcomes l (w.hit l t).2 ts = outcomes l w ts := by
  have hfull : ¬ (w.live l.window t).length < l.max := by
    intro hlt
    rw [hit_of_lt hlt] at hd
    cases hd
  rw [hit_of_not_lt hfull]
  exact outcomes_congr (fun now hnow => live_prune w l.window hnow) hts

/-- **A window decides as its log would.** The clock never steps back. A hit is admitted exactly if
fewer hits than the limit were admitted less than a window ago, and then it is told how many more
would be. A denied hit changes nothing for those after it. So no interval of the length of the
window holds more admissions than the limit. -/
theorem hits_follow_log (l : WindowLimit) (ts : List Moment) (hts : ts.Pairwise (· ≤ ·)) :
    (∀ before t later, ts = before ++ t :: later →
      let w := after l .empty before
      let recent := (admitted l .empty before).countP fun a => t < a.later l.window
      ((w.hit l t).1.allowed = true ↔ recent < l.max) ∧
        ((w.hit l t).1.allowed = true → (w.hit l t).1.remaining = l.max - 1 - recent) ∧
        ((w.hit l t).1.allowed = false → outcomes l (w.hit l t).2 later = outcomes l w later)) ∧
      ∀ start, ((admitted l .empty ts).countP fun a => start ≤ a ∧
        a < start.later l.window) ≤ l.max := by
  constructor
  · rintro before t later rfl
    obtain ⟨hbefore, hlater, hcross⟩ := List.pairwise_append.1 hts
    have hpast : ∀ x ∈ before, x ≤ t := fun x hx => hcross x hx t (.head _)
    have hrecalls := recalls_after (l := l) hbefore hpast
    have hcount : ((after l .empty before).live l.window t).length =
        (admitted l .empty before).countP fun a => t < a.later l.window := by
      rw [hrecalls.counts t (Moment.le_refl t), List.countP_reverse]
      refine List.countP_congr fun a ha => ?_
      simp only [decide_eq_true_eq]
      exact elapsed_lt_iff (hrecalls.past a (List.mem_reverse.2 ha)) l.window
    dsimp only
    rw [← hcount]
    have hdenied := outcomes_of_denied (l := l) (w := after l .empty before)
        (List.pairwise_cons.1 hlater).1
    by_cases hlt : ((after l .empty before).live l.window t).length < l.max
    · rw [hit_of_lt hlt] at hdenied ⊢
      exact ⟨⟨fun _ => hlt, fun _ => rfl⟩, fun _ => Nat.sub_right_comm _ _ _, hdenied⟩
    · rw [hit_of_not_lt hlt] at hdenied ⊢
      exact ⟨⟨nofun, fun h => absurd h hlt⟩, nofun, hdenied⟩
  · intro start
    rw [← List.countP_reverse]
    exact sparse_after hts start

/-- Two hits in ten seconds. -/
def twoInTen : WindowLimit := ⟨2, 10⟩

/-- The second of two admissions is nine seconds old at the last hit, and the first is exactly
ten. -/
def fiveHits : List Moment :=
  [.ofMillis 0, .ofMillis 1000, .ofMillis 9999, .ofMillis 9999, .ofMillis 10000]

theorem hits_follow_log_fiveHits :
    fiveHits.Pairwise (· ≤ ·) ∧ admitted twoInTen .empty (fiveHits.take 4) =
      [.ofMillis 0, .ofMillis 1000] ∧
      ((after twoInTen .empty (fiveHits.take 3)).hit twoInTen (.ofMillis 9999)).1.allowed ≠ true ∧
      ((after twoInTen .empty (fiveHits.take 4)).hit twoInTen (.ofMillis 10000)).1.allowed = true ∧
      ((after twoInTen .empty (fiveHits.take 4)).hit twoInTen (.ofMillis 10000)).1.remaining =
        0 := by
  obtain ⟨hjudged, -⟩ := hits_follow_log twoInTen fiveHits (by decide)
  obtain ⟨hlast, hremaining, -⟩ := hjudged (fiveHits.take 4) _ [] rfl
  obtain ⟨hearly, -⟩ := hjudged (fiveHits.take 3) _ _ rfl
  have hallowed := hlast.2 (by decide)
  exact ⟨by decide, by decide, fun h => absurd (hearly.1 h) (by decide), hallowed,
    (hremaining hallowed).trans (by decide)⟩

/-! ### The wait -/

theorem mem_after {a : Moment} (h : a ∈ (after l w ts).entries) : a ∈ w.entries ∨ a ∈ ts := by
  induction ts generalizing w with
  | nil => exact .inl h
  | cons t ts ih =>
    rcases ih h with h | h
    · rcases mem_hit h with rfl | h
      · exact .inr (.head _)
      · exact .inl h
    · exact .inr (.tail _ h)

theorem length_prune_le (w : Window) (d : Span) (now : Moment) :
    (w.prune d now).entries.length ≤ w.entries.length :=
  (List.dropWhile_sublist _).length_le

/-- A window never holds more than the limit. -/
theorem length_hit_le (h : w.entries.length ≤ l.max) (now : Moment) :
    (w.hit l now).2.entries.length ≤ l.max := by
  by_cases hlt : (w.live l.window now).length < l.max
  · rw [hit_of_lt hlt]
    show (Moment.insertInto now (w.prune l.window now).entries).length ≤ l.max
    rw [(Moment.insertInto_perm now _).length_eq, prune_entries]
    exact hlt
  · rw [hit_of_not_lt hlt]
    exact Nat.le_trans (length_prune_le w l.window now) h

theorem length_after_le (h : w.entries.length ≤ l.max) (ts : List Moment) :
    (after l w ts).entries.length ≤ l.max := by
  induction ts generalizing w with
  | nil => exact h
  | cons t ts ih => exact ih (length_hit_le h t)

/-- The window holds as many moments as the limit, the oldest being `a`. -/
structure Full (l : WindowLimit) (w : Window) (a : Moment) : Prop where
  length : w.entries.length = l.max
  oldest : ∃ rest, w.entries = a :: rest

variable {a : Moment}

theorem Full.oldest_le (h : Full l w a) : ∀ x ∈ w.entries, a ≤ x := by
  obtain ⟨rest, hrest⟩ := h.oldest
  have hsorted := w.sorted
  rw [hrest] at hsorted ⊢
  intro x hx
  rcases List.mem_cons.1 hx with rfl | hx
  · exact Moment.le_refl x
  · exact (List.pairwise_cons.1 hsorted).1 x hx

/-- Until the oldest moment has left it a full window denies, and stays as it is. -/
theorem Full.hit (h : Full l w a) (ha : a ≤ now) (hnow : now < a.later l.window) :
    (w.hit l now).1.allowed = false ∧ (w.hit l now).2 = w := by
  have hlive : w.live l.window now = w.entries := by
    refine List.filter_eq_self.2 fun x hx => decide_eq_true ?_
    exact Moment.elapsed_lt_of_lt_later (h.oldest_le x hx) ha hnow
  have hfull : ¬ (w.live l.window now).length < l.max := by
    rw [hlive, h.length]
    exact Nat.lt_irrefl _
  rw [hit_of_not_lt hfull]
  exact ⟨rfl, ext_entries (by rw [prune_entries, hlive])⟩

theorem Full.after (h : Full l w a) (hus : ∀ u ∈ us, a ≤ u ∧ u < a.later l.window) :
    (∀ o ∈ outcomes l w us, o.allowed = false) ∧ after l w us = w := by
  induction us with
  | nil => exact ⟨nofun, rfl⟩
  | cons u us ih =>
    obtain ⟨hdenied, hsame⟩ := h.hit (hus u (.head _)).1 (hus u (.head _)).2
    obtain ⟨hlater, hrest⟩ := ih fun u hu => hus u (.tail _ hu)
    rw [outcomes, hsame]
    refine ⟨fun o ho => ?_, ?_⟩
    · rcases List.mem_cons.1 ho with rfl | ho
      · exact hdenied
      · exact hlater o ho
    · show Window.after l (w.hit l u).2 us = w
      rw [hsame, hrest]

/-- When the oldest moment has left it there is room for one more. -/
theorem Full.hit_later (h : Full l w a) : (w.hit l (a.later l.window)).1.allowed = true := by
  obtain ⟨rest, hrest⟩ := h.oldest
  have hold : ¬ a.elapsed (a.later l.window) < l.window := by
    have hle : a ≤ a.later l.window := by
      show a.nanos ≤ a.nanos + l.window.nanos
      omega
    rw [elapsed_lt_iff hle]
    exact Int.lt_irrefl _
  have hroom : (w.live l.window (a.later l.window)).length < l.max := by
    rw [live, hrest, List.filter_cons, if_neg (by simpa using hold), ← h.length, hrest]
    exact Nat.lt_succ_of_le (List.length_filter_le _ _)
  rw [hit_of_lt hroom]
  rfl

/-- A hit that is denied leaves a full window, and its wait ends when the oldest moment leaves. -/
theorem full_of_denied (hmax : 0 < l.max) (hw : w.entries.length ≤ l.max)
    (hpast : ∀ x ∈ w.entries, x ≤ t) (hd : (w.hit l t).1.allowed = false) :
    ∃ a, Full l (w.hit l t).2 a ∧ a ≤ t ∧ t.later (w.hit l t).1.retryAfter = a.later l.window ∧
      .zero < (w.hit l t).1.retryAfter ∧ (w.hit l t).1.retryAfter ≤ l.window := by
  have hfull : ¬ (w.live l.window t).length < l.max := by
    intro hlt
    rw [hit_of_lt hlt] at hd
    cases hd
  rw [hit_of_not_lt hfull]
  have hlength : (w.live l.window t).length = l.max :=
    Nat.le_antisymm (Nat.le_trans (List.length_filter_le _ _) hw) (Nat.le_of_not_lt hfull)
  cases hlive : w.live l.window t with
  | nil => simp [hlive] at hlength; omega
  | cons a rest =>
    have hmem : a ∈ w.live l.window t := hlive ▸ .head _
    obtain ⟨ha, halive⟩ := List.mem_filter.1 hmem
    have hle : a.nanos ≤ t.nanos := hpast a ha
    have hlimit := l.window.le_limit
    have halive : min (t.nanos - a.nanos).toNat spanLimit < l.window.nanos :=
        of_decide_eq_true halive
    -- the wait is what the oldest moment has still to go
    have hwait : (l.window.sub (a.elapsed t)).nanos =
        (l.window.nanos - (t.nanos - a.nanos).toNat) := by
      show min (l.window.nanos - min (t.nanos - a.nanos).toNat spanLimit) spanLimit = _
      omega
    refine ⟨a, ⟨?_, rest, ?_⟩, hle, ?_, ?_, ?_⟩
    · rw [prune_entries, hlength]
    · rw [prune_entries, hlive]
    · show Moment.mk (t.nanos + (l.window.sub (a.elapsed t)).nanos) = ⟨a.nanos + l.window.nanos⟩
      rw [hwait]
      congr 1
      omega
    · show 0 < (l.window.sub (a.elapsed t)).nanos
      omega
    · show (l.window.sub (a.elapsed t)).nanos ≤ l.window.nanos
      omega

/-- **The wait of a denied hit is exact.** A window has been hit again and again, in whatever order,
and denies a hit that is not before any of them. It denies every further one until the wait that it
has answered is over, however many come, and admits the first one after. The wait is positive and no
longer than the window. -/
theorem denied_until_wait_is_over (l : WindowLimit) (hl : l.fault? = none) (ts : List Moment)
    (t : Moment) (ht : ∀ x ∈ ts, x ≤ t) (hd : ((after l .empty ts).hit l t).1.allowed = false) :
    let r := ((after l .empty ts).hit l t).1.retryAfter
    let w := ((after l .empty ts).hit l t).2
    .zero < r ∧ r ≤ l.window ∧ ∀ us, (∀ u ∈ us, t ≤ u ∧ u < t.later r) →
      (∀ o ∈ outcomes l w us, o.allowed = false) ∧
      ((after l w us).hit l (t.later r)).1.allowed = true := by
  have hmax : 0 < l.max := by
    refine Nat.pos_of_ne_zero fun h => ?_
    simp [WindowLimit.fault?, h] at hl
  have hpast : ∀ x ∈ (after l .empty ts).entries, x ≤ t := by
    intro x hx
    rcases mem_after hx with h | h
    · exact absurd h List.not_mem_nil
    · exact ht x h
  obtain ⟨a, hfull, hle, hfree, hpos, hwindow⟩ :=
    full_of_denied hmax (length_after_le (Nat.zero_le _) ts) hpast hd
  refine ⟨hpos, hwindow, fun us hus => ?_⟩
  rw [hfree] at hus ⊢
  obtain ⟨hdenied, hsame⟩ :=
    hfull.after fun u hu => ⟨Moment.le_trans hle (hus u hu).1, (hus u hu).2⟩
  rw [hsame]
  exact ⟨hdenied, hfull.hit_later⟩

/-- The first of two admissions leaves after ten seconds. A hit after three seconds is told to wait
for seven, and it is admitted then, though it has tried again one nanosecond too early. -/
theorem denied_until_wait_is_over_sevenSeconds :
    let w := after twoInTen .empty [.ofMillis 0, .ofMillis 1000]
    let early : Moment := ⟨9999999999⟩
    (w.hit twoInTen (.ofMillis 3000)).1.allowed = false ∧
      (w.hit twoInTen (.ofMillis 3000)).1.retryAfter = .ofSecs 7 ∧
      (((w.hit twoInTen (.ofMillis 3000)).2.hit twoInTen early).1.allowed = false) ∧
      ((after twoInTen (w.hit twoInTen (.ofMillis 3000)).2 [early]).hit twoInTen
        (.ofMillis 10000)).1.allowed = true := by
  intro w early
  have hd : (w.hit twoInTen (.ofMillis 3000)).1.allowed = false := by decide
  obtain ⟨-, -, hlater⟩ := denied_until_wait_is_over twoInTen (by decide)
    [.ofMillis 0, .ofMillis 1000]
    (.ofMillis 3000) (by decide) hd
  obtain ⟨hdenied, hadmitted⟩ := hlater [early] (by decide)
  exact ⟨hd, by decide, hdenied _ (.head _), hadmitted⟩

end Window

end GuardedWrites

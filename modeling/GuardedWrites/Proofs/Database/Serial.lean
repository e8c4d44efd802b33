import GuardedWrites.Proofs.Database.Lifetime

/-!
# One after another

A commit asks whether the rows that the transaction wrote are still as they were first seen. It does
not ask about rows that were only read, so two transactions may each read what the other is about to
write, and both commit. That no serial order explains.

What a commit leaves out is also all that is missing. If at every commit the rows that were only
read are unchanged too, the transactions that commit are as if they had run one after another, in
the order in which they committed: every request is answered alike, and the rows are the same.

* `Alone` — the work of a transaction on rows that nobody else changes;
* `Serializable` — the serial histories that a history is equivalent to;
* `serializable_of_undisturbed` — undisturbed reads make a history serializable;
* `write_skew_not_serializable` — disturbed ones need not.
-/

namespace GuardedWrites

open TransactionalStore (Request Result)

/-- The same request to another transaction. -/
def TransactionalStore.Request.as (n : Nat) : Request → Request
  | .begin c => .begin c
  | .fetch _ table id => .fetch n table id
  | .insert _ table row => .insert n table row
  | .update _ table id patch expected => .update n table id patch expected
  | .commit _ => .commit n
  | .rollback _ => .rollback n

/-- Every row that a transaction touched still counts what it did when it was first seen. -/
def OpenTransaction.Undisturbed (t : OpenTransaction) (rows : Rows) : Prop :=
  ∀ key v, t.base.get? key = some v → rows.count? key = v

instance (t : OpenTransaction) (rows : Rows) : Decidable (t.Undisturbed rows) :=
  decidable_of_iff (∀ e ∈ t.base.entries, rows.count? e.1 = e.2) (by
    simp only [OpenTransaction.Undisturbed, Table.get?_eq_some_iff, Prod.forall])

namespace Database

/-! ### The story of a transaction -/

/-- The same event in a transaction of another number. -/
def Event.as (n : Nat) : Event → Event
  | ⟨.begin c, a⟩ => ⟨.begin c, a.map fun _ => n⟩
  | ⟨.fetch _ table id, a⟩ => ⟨.fetch n table id, a⟩
  | ⟨.insert _ table row, a⟩ => ⟨.insert n table row, a⟩
  | ⟨.update _ table id patch expected, a⟩ => ⟨.update n table id patch expected, a⟩
  | ⟨.commit _, a⟩ => ⟨.commit n, a⟩
  | ⟨.rollback _, a⟩ => ⟨.rollback n, a⟩

/-- Whether a request was refused because its transaction was not open. -/
def Event.refused (e : Event) : Bool :=
  match e.answer with
  | .ok _ => false
  | .error x => x == .finished

/-- The transaction that an event is part of: the one that it began, or the one that served the
request. -/
def Event.tx? (e : Event) : Option Nat := if e.refused then none else e.begun?.or e.request.tx?

/-- All that a transaction did, in order. -/
def story (n : Nat) (log : List Event) : List Event := (log.filter fun e => e.tx? = some n).reverse

/-- The transactions that committed, in the order of their commits. -/
def committed (log : List Event) : List Nat := (log.filterMap Event.committed?).reverse

/-- The requests of some transactions, one transaction after another, under the numbers that they
get then. -/
def serially (log : List Event) (order : List Nat) : List Request :=
  order.zipIdx.flatMap fun x => (story x.1 log).map fun e => (e.as x.2).request

/-- The transactions run one after another in an order: each request is answered as it was, and the
rows are the same. -/
structure EquivalentTo (rows : Rows) (s : History) (order : List Nat) : Prop where
  answers : ∀ n i, (n, i) ∈ order.zipIdx →
    story i (History.after rows (serially s.log order)).log = (story n s.log).map (Event.as i)
  rows : ∀ key, (History.after rows (serially s.log order)).db.rows.get? key = s.db.rows.get? key

/-- The transactions that committed can be put into an order in which they might have run one after
another. -/
def Serializable (rows : Rows) (s : History) : Prop :=
  ∃ order : List Nat, order.Perm (committed s.log) ∧ EquivalentTo rows s order

variable {e : Event} {r : Request} {n i : Nat} {key : RowKey} {rows : Rows} {s : History}

theorem Event.request_as (e : Event) (n : Nat) : (e.as n).request = e.request.as n := by
  obtain ⟨r, a⟩ := e
  cases r <;> rfl

theorem story_cons (e : Event) (log : List Event) (n : Nat) :
    story n (e :: log) = if e.tx? = some n then story n log ++ [e] else story n log := by
  by_cases h : e.tx? = some n <;> simp [story, h]

theorem story_cons_of_ne (h : e.tx? ≠ some n) (log : List Event) :
    story n (e :: log) = story n log := by
  rw [story_cons, if_neg h]

theorem story_cons_of_eq (h : e.tx? = some n) (log : List Event) :
    story n (e :: log) = story n log ++ [e] := by
  rw [story_cons, if_pos h]

theorem committed_cons (e : Event) (log : List Event) :
    committed (e :: log) = committed log ++ e.committed?.toList := by
  cases h : e.committed? <;> simp [committed, h]

theorem refused_of_ne {a : Except StoreError (Result r)} (h : a ≠ .error .finished) :
    Event.refused ⟨r, a⟩ = false := by
  cases a with
  | ok x => rfl
  | error x =>
    simp only [Event.refused, beq_eq_false_iff_ne]
    rintro rfl
    exact h rfl

theorem begun?_of_tx? {a : Except StoreError (Result r)} (hr : r.tx? = some n) :
    Event.begun? ⟨r, a⟩ = none := by
  cases r <;> first | rfl | cases hr

/-- A served request is part of its transaction. -/
theorem tx?_of_served {a : Except StoreError (Result r)} (ha : a ≠ .error .finished)
    (hr : r.tx? = some n) :
    Event.tx? ⟨r, a⟩ = some n := by
  rw [Event.tx?, refused_of_ne ha, begun?_of_tx? hr]
  exact hr

/-! ### Work alone -/

/-- The work of a transaction on rows that nobody else changes, with the answers that it gets. -/
inductive Alone (rows : Rows) (isolation : IsolationLevel) : List Event → OpenTransaction → Prop
  | new : Alone rows isolation [] (.new isolation)
  | work {es : List Event} {t : OpenTransaction} {r : Request} {n : Nat} {key : RowKey}
      (h : Alone rows isolation es t) (hr : r.works? = some (n, key)) :
      Alone rows isolation (es ++ [⟨r, (t.serve rows r).1⟩]) (t.serve rows r).2

/-- If a row counts in later rows what it did when it was first seen, it is the same there. -/
theorem eq_of_undisturbed {rows later : Rows} {t : OpenTransaction} {ws : List Write}
    (h : Tracks rows t key ws) (hforward : Rows.Precedes rows later)
    (hw : t.writes.get? key = none)
    (hkeep : ∀ v, (t.read rows key).2.base.get? key = some v → later.count? key = v) :
    rows.get? key = later.get? key := by
  obtain ⟨seen, hseen, hle⟩ := h.base_after_read hw
  have hcount : later.count? key = seen := hkeep seen hseen
  cases seen with
  | none =>
    -- there is no such row in the end, so there is none now
    rw [Rows.count?, Option.map_eq_none_iff] at hcount
    cases hrow : rows.get? key with
    | none => rw [hcount]
    | some row =>
      obtain ⟨row', hrow', -⟩ := hforward key row hrow
      simp [hcount] at hrow'
  | some v =>
    obtain ⟨cur, hcur, hv⟩ := hle v rfl
    obtain ⟨row', hrow', hprec⟩ := hforward key cur hcur
    rw [Rows.count?, hrow', Option.map_some, Option.some.injEq] at hcount
    rw [hcur, hrow', hprec.eq_of_count_le (by omega)]

/-- What a transaction got so far is what it gets alone on every later state of the rows in which
all that it touched is undisturbed. -/
def Repeatable (rows : Rows) (isolation : IsolationLevel) (es : List Event)
    (t : OpenTransaction) : Prop :=
  ∀ later, Rows.Precedes rows later → t.Undisturbed later → Alone later isolation es t

theorem Repeatable.work {isolation : IsolationLevel} {es : List Event} {t : OpenTransaction}
    (h : Repeatable rows isolation es t) (htracks : ∀ key, ∃ ws, Tracks rows t key ws)
    (hr : r.works? = some (n, key)) :
    Repeatable rows isolation (es ++ [⟨r, (t.serve rows r).1⟩]) (t.serve rows r).2 := by
  intro later hforward hundisturbed
  have hbefore : t.Undisturbed later := fun k v hv =>
    hundisturbed k v (OpenTransaction.base_serve_of_some hr hv)
  have hsame : t.serve rows r = t.serve later r := by
    obtain ⟨ws, hws⟩ := htracks key
    refine OpenTransaction.serve_congr hr fun hw => eq_of_undisturbed hws hforward hw fun v hv => ?_
    exact hundisturbed key v (by rwa [OpenTransaction.base_serve hr])
  rw [hsame]
  exact (h later hforward hbefore).work hr

/-- Commits of others take nothing away. -/
theorem Repeatable.mono {rows rows' : Rows} {isolation : IsolationLevel} {es : List Event}
    {t : OpenTransaction} (h : Repeatable rows isolation es t) (hrows : Rows.Precedes rows rows') :
    Repeatable rows' isolation es t :=
  fun later hforward => h later (hrows.trans hforward)

/-! ### Work alone, as a store does it -/

theorem works?_as (r : Request) (i : Nat) : (r.as i).works? = r.works?.map fun x => (i, x.2) := by
  cases r <;> rfl

/-- Under another number a request does the same work. -/
theorem serve_as (t : OpenTransaction) (rows : Rows) (hr : r.works? = some (n, key)) (i : Nat) :
    Event.as i ⟨r, (t.serve rows r).1⟩ = ⟨r.as i, (t.serve rows (r.as i)).1⟩ ∧
      (t.serve rows (r.as i)).2 = (t.serve rows r).2 := by
  cases r <;> exact ⟨rfl, rfl⟩

theorem ask_of_works {t : OpenTransaction} (hr : r.works? = some (n, key))
    (ht : s.db.opened.get? n = some t) :
    s.ask r = ⟨s.db.withOpen n (t.serve s.db.rows r).2, ⟨r, (t.serve s.db.rows r).1⟩ :: s.log⟩ := by
  rw [History.ask, step_of_works hr ht]

/-- A store whose rows are those given does the work of a transaction as it is done alone, under the
next free number. -/
theorem Alone.replay {c : TransactionContext} {es : List Event} {t : OpenTransaction}
    (h : Alone rows c.isolation es t) (hrows : ∀ key, s.db.rows.get? key = rows.get? key) :
    let s' := (es.map fun e => (e.as s.db.begun).request).foldl History.ask (s.ask (.begin c))
    s'.db.rows = s.db.rows ∧ s'.db.opened.get? s.db.begun = some t ∧ s'.db.begun = s.db.begun + 1 ∧
      s'.log = (es.map (Event.as s.db.begun)).reverse ++ ⟨.begin c, .ok s.db.begun⟩ :: s.log := by
  induction h with
  | new => exact ⟨rfl, by simp [History.ask, step, begin, Table.get?_insert], rfl, rfl⟩
  | @work es t r n key h hr ih =>
    obtain ⟨hrows', hopen, hbegun, hlog⟩ := ih
    have hr' : (r.as s.db.begun).works? = some (s.db.begun, key) := by rw [works?_as, hr]; rfl
    obtain ⟨hanswer, hrest⟩ := serve_as t rows hr s.db.begun
    have hsame : t.serve s.db.rows (r.as s.db.begun) = t.serve rows (r.as s.db.begun) :=
      OpenTransaction.serve_congr hr' fun _ => hrows key
    simp only [List.map_append, List.map_cons, List.map_nil, List.foldl_append, List.foldl_cons,
      List.foldl_nil, Event.request_as] at *
    rw [ask_of_works hr' hopen, hrows', hsame, hrest, hlog, ← hanswer]
    exact ⟨hrows', by simp [withOpen, Table.get?_insert], hbegun, by simp⟩

theorem isCurrent_congr {t : OpenTransaction} {rows rows' : Rows}
    (h : ∀ key, rows.get? key = rows'.get? key) (hcurrent : t.isCurrent rows = true) :
    t.isCurrent rows' = true := by
  rw [OpenTransaction.isCurrent_iff] at hcurrent ⊢
  intro key row hrow
  rw [← hcurrent key row hrow, Rows.count?, Rows.count?, h key]

theorem ask_commit {t : OpenTransaction} (ht : s.db.opened.get? n = some t)
    (hcurrent : t.isCurrent s.db.rows = true) :
    s.ask (.commit n) =
      ⟨{ s.db.abandon n with rows := t.writeTo s.db.rows, commits := s.db.commits + 1 },
        ⟨.commit n, .ok ()⟩ :: s.log⟩ := by
  have hstep : s.db.step (.commit n) = s.db.commit n t := by simp only [step, ht]
  rw [History.ask, hstep, commit_of_isCurrent s.db n hcurrent]

/-- A transaction that works alone and commits does the same, with the same answers, on every store
with the given rows. -/
theorem Alone.replay_committed {c : TransactionContext} {es : List Event} {t : OpenTransaction}
    (h : Alone rows c.isolation es t) (hrows : ∀ key, s.db.rows.get? key = rows.get? key)
    (hcurrent : t.isCurrent rows = true) (n : Nat) :
    let story : List Event := ⟨.begin c, .ok n⟩ :: (es ++ [⟨.commit n, .ok ()⟩])
    let s' := (story.map fun e => (e.as s.db.begun).request).foldl History.ask s
    s'.db.begun = s.db.begun + 1 ∧ (∀ key, s'.db.rows.get? key = (t.writeTo rows).get? key) ∧
      s'.log = (story.map (Event.as s.db.begun)).reverse ++ s.log := by
  intro story s'
  obtain ⟨hrows', hopen, hbegun, hlog⟩ := h.replay hrows
  have hs' : s' = ((es.map fun e => (e.as s.db.begun).request).foldl History.ask
      (s.ask (.begin c))).ask (.commit s.db.begun) := by
    simp [s', story, Event.as]
  have hcurrent' := isCurrent_congr (fun key => (hrows key).symm) hcurrent
  rw [← hrows'] at hcurrent'
  rw [hs', ask_commit hopen hcurrent']
  refine ⟨hbegun, fun key => ?_, ?_⟩
  · rw [hrows', OpenTransaction.get?_writeTo, OpenTransaction.get?_writeTo, hrows key]
  · rw [hlog]
    simp [story, Event.as, Except.map]

/-- What a transaction does alone is part of it, under any number. -/
theorem Alone.tx?_as {isolation : IsolationLevel} {es : List Event} {t : OpenTransaction}
    (h : Alone rows isolation es t) (i : Nat) : ∀ e ∈ es, (e.as i).tx? = some i := by
  induction h with
  | new => simp
  | @work es t r n key h hr ih =>
    intro e he
    rcases List.mem_append.1 he with he | he
    · exact ih e he
    · rw [List.mem_singleton] at he
      have hr' : (r.as i).works? = some (i, key) := by rw [works?_as, hr]; rfl
      rw [he, (serve_as _ _ hr i).1]
      exact tx?_of_served (OpenTransaction.serve_ne_finished _ hr') (Request.tx?_of_works hr')

/-! ### Stories and what is added to a log -/

theorem story_append (later log : List Event) (n : Nat) :
    story n (later ++ log) = story n log ++ story n later := by
  simp [story]

theorem story_of_all {log : List Event} (h : ∀ e ∈ log, e.tx? = some n) :
    story n log = log.reverse := by
  rw [story, List.filter_eq_self.2 fun e he => by simp [h e he]]

theorem story_of_all_ne {log : List Event} (h : ∀ e ∈ log, e.tx? = some i) (hne : i ≠ n) :
    story n log = [] := by
  rw [story, List.filter_eq_nil_iff.2 fun e he => by simp [h e he, hne], List.reverse_nil]

theorem serially_cons {log : List Event} {order : List Nat} (h : ∀ n ∈ order, e.tx? ≠ some n) :
    serially (e :: log) order = serially log order := by
  rw [serially, serially, List.flatMap_def, List.flatMap_def]
  refine congrArg List.flatten (List.map_congr_left fun x hx => ?_)
  rw [story_cons_of_ne (h x.1 (List.fst_mem_of_mem_zipIdx hx))]

theorem serially_append (log : List Event) (order : List Nat) (n : Nat) :
    serially log (order ++ [n]) =
      serially log order ++ (story n log).map fun e => (e.as order.length).request := by
  simp [serially, List.zipIdx_append]

/-- An event is part of a transaction that it begins, or that is open. -/
theorem Life.tx?_cases {db db' : Database} (h : Life db e db') (he : e.tx? = some n) :
    n = db.begun ∧ (∃ c, e = ⟨.begin c, .ok n⟩) ∨ ∃ t, db.opened.get? n = some t := by
  cases h with
  | begun c =>
    cases he
    exact .inl ⟨rfl, c, rfl⟩
  | refused r m hr hm => simp [Event.tx?, Event.refused] at he
  | worked r m key t hr ht =>
    rw [tx?_of_served (OpenTransaction.serve_ne_finished _ hr) (Request.tx?_of_works hr),
      Option.some.injEq] at he
    exact .inr ⟨t, he ▸ ht⟩
  | committed m t ht hcurrent =>
    cases he
    exact .inr ⟨t, ht⟩
  | failed m t ht hcurrent =>
    cases he
    exact .inr ⟨t, ht⟩
  | rolledBack m t ht =>
    cases he
    exact .inr ⟨t, ht⟩

/-- A commit that succeeds is one of a transaction that is open and whose rows are unchanged. -/
theorem Life.committed_cases {db db' : Database} (h : Life db e db') (he : e.committed? = some n) :
    e.request = .commit n ∧ ∃ t, db.opened.get? n = some t ∧ t.isCurrent db.rows = true := by
  cases h with
  | begun c => cases he
  | refused r m hr hm => cases r <;> cases he
  | worked r m key t hr ht =>
    have hnone : Event.committed? ⟨r, (t.serve db.rows r).1⟩ = none := by
      cases r <;> rfl
    cases hnone.symm.trans he
  | committed m t ht hcurrent =>
    cases he
    exact ⟨rfl, t, ht, hcurrent⟩
  | failed m t ht hcurrent => cases he
  | rolledBack m t ht => cases he

theorem Life.tx?_ne_of_closed {db db' : Database} (h : Life db e db') (hn : Closed db n) :
    e.tx? ≠ some n := by
  intro he
  rcases h.tx?_cases he with ⟨rfl, -⟩ | ⟨t, ht⟩
  · exact Nat.lt_irrefl _ hn.1
  · simp [hn.2] at ht

/-- A number that is not given out yet has no story. -/
theorem story_of_not_begun (rows : Rows) (rs : List Request) :
    ∀ n, (History.after rows rs).db.begun ≤ n → story n (History.after rows rs).log = [] := by
  refine History.after_induction (P := fun s => ∀ n, s.db.begun ≤ n → story n s.log = [])
    (fun n _ => rfl) (fun rs r ih n hn => ?_) rs
  have hlife := life_step (History.after rows rs).db r
  rw [History.ask, story_cons_of_ne, ih n (Nat.le_trans hlife.begun_le hn)]
  intro he
  rcases hlife.tx?_cases he with ⟨hnext, c, hbegin⟩ | ⟨t, ht⟩
  · obtain rfl : r = .begin c := congrArg Event.request hbegin
    have hsucc : (History.after rows rs).db.begun + 1 ≤ n := hn
    omega
  · have hlt := (History.invariant_after rows rs).numbered n t ht
    exact Nat.lt_irrefl _ (Nat.lt_of_lt_of_le hlt (Nat.le_trans hlife.begun_le hn))

/-! ### The serial history beside the interleaving -/

/-- A request that is a commit finds all that its transaction touched undisturbed, unless it fails
anyway. -/
def Validated (s : History) : Request → Prop
  | .commit n => ∀ t ∈ s.db.opened.get? n, t.isCurrent s.db.rows = true → t.Undisturbed s.db.rows
  | _ => True

instance (s : History) (r : Request) : Decidable (Validated s r) := by
  cases r <;> unfold Validated <;> infer_instance

/-- Every commit among some requests finds all that its transaction touched undisturbed, unless it
fails anyway. -/
def AllValidated (s : History) : List Request → Prop
  | [] => True
  | r :: rs => Validated s r ∧ AllValidated (s.ask r) rs

instance decidableAllValidated (s : History) : (rs : List Request) → Decidable (AllValidated s rs)
  | [] => .isTrue trivial
  | r :: rs =>
    have := decidableAllValidated (s.ask r) rs
    inferInstanceAs (Decidable (Validated s r ∧ AllValidated (s.ask r) rs))

/-- The serial history of the transactions that have committed so far, beside the interleaving. -/
structure Mirrored (rows : Rows) (s : History) : Prop where
  reached : ∃ rs, s = History.after rows rs
  opened : ∀ n t, s.db.opened.get? n = some t → ∃ c es,
    story n s.log = ⟨.begin c, .ok n⟩ :: es ∧ Repeatable s.db.rows c.isolation es t
  closed : ∀ n ∈ committed s.log, Closed s.db n
  equivalent : EquivalentTo rows s (committed s.log)
  begun : (History.after rows (serially s.log (committed s.log))).db.begun =
    (committed s.log).length

namespace Mirrored

theorem opening (rows : Rows) : Mirrored rows (.opening rows) where
  reached := ⟨[], rfl⟩
  opened n t h := by simp [History.opening] at h
  closed n h := by simp [committed, History.opening] at h
  equivalent := ⟨fun n i h => by simp [committed, History.opening] at h, fun _ => rfl⟩
  begun := rfl

theorem reached_ask (h : Mirrored rows s) (r : Request) :
    ∃ rs, s.ask r = History.after rows rs := by
  obtain ⟨rs, rfl⟩ := h.reached
  exact ⟨rs ++ [r], (History.after_concat rows rs r).symm⟩

theorem invariant (h : Mirrored rows s) : History.Invariant rows s := by
  obtain ⟨rs, rfl⟩ := h.reached
  exact History.invariant_after rows rs

theorem fresh (h : Mirrored rows s) (hn : s.db.begun ≤ n) : story n s.log = [] := by
  obtain ⟨rs, rfl⟩ := h.reached
  exact story_of_not_begun rows rs n hn

/-- What was committed before stays as it is in the serial history. -/
theorem serially_ask (h : Mirrored rows s) (r : Request) :
    serially (s.ask r).log (committed s.log) = serially s.log (committed s.log) :=
  serially_cons fun n hn => (life_step s.db r).tx?_ne_of_closed (h.closed n hn)

theorem story_ask (h : Mirrored rows s) (r : Request) (hn : n ∈ committed s.log) :
    story n (s.ask r).log = story n s.log :=
  story_cons_of_ne ((life_step s.db r).tx?_ne_of_closed (h.closed n hn)) _

/-- What holds of an open transaction after an event that is no part of it, or that is its own
work. -/
theorem opened_step (h : Mirrored rows s) {db' : Database} (hlife : Life s.db e db')
    (hc : e.committed? = none) (n : Nat) (t : OpenTransaction) (ht : db'.opened.get? n = some t) :
    ∃ c es, story n (e :: s.log) = ⟨.begin c, .ok n⟩ :: es ∧
      Repeatable db'.rows c.isolation es t := by
  -- a transaction that was open before and to which the event does not belong
  have hother : e.tx? ≠ some n → s.db.opened.get? n = some t → db'.rows = s.db.rows →
      ∃ c es, story n (e :: s.log) = ⟨.begin c, .ok n⟩ :: es ∧
        Repeatable db'.rows c.isolation es t := by
    intro he hbefore hrows
    rw [story_cons_of_ne he, hrows]
    exact h.opened n t hbefore
  cases hlife with
  | begun c =>
    simp only [begin, Table.get?_insert] at ht
    split at ht
    · rename_i hn
      subst hn
      obtain rfl := Option.some.inj ht
      refine ⟨c, [], ?_, fun later _ _ => .new⟩
      rw [story_cons_of_eq rfl, h.fresh (Nat.le_refl _), List.nil_append]
    · rename_i hn
      exact hother (fun he => hn (Option.some.inj he)) ht rfl
  | refused r m hr hm => exact hother (by simp [Event.tx?, Event.refused]) ht rfl
  | worked r m key u hr hu =>
    have hpart := tx?_of_served (u.serve_ne_finished s.db.rows hr) (Request.tx?_of_works hr)
    simp only [withOpen, Table.get?_insert] at ht
    split at ht
    · rename_i hn
      subst hn
      obtain rfl := Option.some.inj ht
      obtain ⟨c, es, hstory, hrepeat⟩ := h.opened m u hu
      refine ⟨c, es ++ [⟨r, (u.serve s.db.rows r).1⟩], ?_, ?_⟩
      · rw [story_cons_of_eq hpart, hstory, List.cons_append]
      · exact hrepeat.work (fun key => ⟨_, h.invariant.tracks m u key hu⟩) hr
    · rename_i hn
      exact hother (fun he => hn (Option.some.inj (hpart.symm.trans he))) ht rfl
  | committed m u hu hcurrent => simp [Event.committed?] at hc
  | failed m u hu hcurrent =>
    obtain ⟨hne, hold⟩ := opened_of_abandon ht
    exact hother (fun he => hne (Option.some.inj he)) hold rfl
  | rolledBack m u hu =>
    obtain ⟨hne, hold⟩ := opened_of_abandon ht
    exact hother (fun he => hne (Option.some.inj he)) hold rfl

/-- A request that commits nothing leaves the serial history as it is. -/
theorem ask_of_not_committed (h : Mirrored rows s)
    (hc : Event.committed? ⟨r, (s.db.step r).1⟩ = none) :
    Mirrored rows (s.ask r) := by
  have hlife := life_step s.db r
  have hcommitted : committed (s.ask r).log = committed s.log := by
    rw [History.ask, committed_cons, hc, Option.toList_none, List.append_nil]
  have hrows : (s.ask r).db.rows = s.db.rows := (did_step s.db r).rows_of_not_committed hc
  refine ⟨h.reached_ask r, h.opened_step hlife hc, ?_, ?_, ?_⟩
  · intro n hn
    rw [hcommitted] at hn
    exact hlife.closed (h.closed n hn)
  · rw [hcommitted]
    refine ⟨fun n i hmem => ?_, fun key => ?_⟩
    · rw [h.serially_ask r, h.story_ask r (List.fst_mem_of_mem_zipIdx hmem)]
      exact h.equivalent.answers n i hmem
    · rw [h.serially_ask r, hrows]
      exact h.equivalent.rows key
  · rw [hcommitted, h.serially_ask r]
    exact h.begun

/-- What holds of the transactions that stay open when another one commits. -/
theorem opened_commit (h : Mirrored rows s) {t : OpenTransaction} (ht : s.db.opened.get? n = some t)
    (hcurrent : t.isCurrent s.db.rows = true) (m : Nat) (u : OpenTransaction)
    (hu : (s.ask (.commit n)).db.opened.get? m = some u) :
    ∃ c es, story m (s.ask (.commit n)).log = ⟨.begin c, .ok m⟩ :: es ∧
      Repeatable (s.ask (.commit n)).db.rows c.isolation es u := by
  have hforward : Rows.Precedes s.db.rows (s.ask (.commit n)).db.rows :=
    h.invariant.precedes (did_step s.db (.commit n))
  have hask := ask_commit ht hcurrent
  rw [hask] at hu
  obtain ⟨hne, hold⟩ := opened_of_abandon hu
  obtain ⟨c, es, hstory, hrepeat⟩ := h.opened m u hold
  refine ⟨c, es, ?_, hrepeat.mono hforward⟩
  have hother : Event.tx? ⟨.commit n, .ok ()⟩ ≠ some m := fun he => hne (Option.some.inj he)
  rw [hask, story_cons_of_ne hother, hstory]

/-- A commit adds its transaction to the serial history. -/
theorem ask_of_committed (h : Mirrored rows s) {t : OpenTransaction}
    (ht : s.db.opened.get? n = some t) (hcurrent : t.isCurrent s.db.rows = true)
    (hundisturbed : t.Undisturbed s.db.rows) : Mirrored rows (s.ask (.commit n)) := by
  have hlife := life_step s.db (.commit n)
  have hask := ask_commit ht hcurrent
  have hlog : (s.ask (.commit n)).log = ⟨.commit n, .ok ()⟩ :: s.log := by rw [hask]
  have hcommitted : committed (s.ask (.commit n)).log = committed s.log ++ [n] := by
    rw [hlog, committed_cons]
    rfl
  obtain ⟨c, es, hstory, hrepeat⟩ := h.opened n t ht
  have hstory' : story n (s.ask (.commit n)).log =
      ⟨.begin c, .ok n⟩ :: (es ++ [⟨.commit n, .ok ()⟩]) := by
    rw [hlog, story_cons_of_eq rfl, hstory, List.cons_append]
  -- nothing that the transaction touched has changed, so on the rows of this moment it works alone
  have halone : Alone s.db.rows c.isolation es t := hrepeat s.db.rows (.refl _) hundisturbed
  obtain ⟨hbegun, hrows, hserial⟩ := halone.replay_committed h.equivalent.rows hcurrent n
  rw [← hstory', h.begun] at hbegun hrows hserial
  have hafter :
      History.after rows (serially (s.ask (.commit n)).log (committed (s.ask (.commit n)).log)) =
      ((story n (s.ask (.commit n)).log).map fun e => (e.as (committed s.log).length).request).foldl
        History.ask (History.after rows (serially s.log (committed s.log))) := by
    rw [hcommitted, serially_append, h.serially_ask, History.after_append]
  have hpart : ∀ e ∈ ((story n (s.ask (.commit n)).log).map
      (Event.as (committed s.log).length)).reverse, e.tx? = some (committed s.log).length := by
    rw [hstory']
    intro e he
    simp only [List.mem_reverse, List.map_cons, List.map_append, List.map_nil, List.mem_cons,
      List.mem_append, List.not_mem_nil, or_false, List.mem_map] at he
    rcases he with rfl | ⟨e, he, rfl⟩ | rfl
    · rfl
    · exact halone.tx?_as _ e he
    · rfl
  refine ⟨h.reached_ask _, h.opened_commit ht hcurrent, ?_, ⟨?_, ?_⟩, ?_⟩
  · intro m hm
    rw [hcommitted, List.mem_append, List.mem_singleton] at hm
    rcases hm with hm | rfl
    · exact hlife.closed (h.closed m hm)
    · exact hlife.closed_of_ends rfl (h.invariant.numbered m t ht)
  · intro m i hmem
    rw [hafter, hserial, story_append]
    rw [hcommitted, List.zipIdx_append, List.mem_append] at hmem
    rcases hmem with hmem | hmem
    · have hlt : i < (committed s.log).length := by simpa using List.snd_lt_add_of_mem_zipIdx hmem
      rw [story_of_all_ne hpart (by omega), List.append_nil,
        h.story_ask _ (List.fst_mem_of_mem_zipIdx hmem)]
      exact h.equivalent.answers m i hmem
    · simp only [List.zipIdx_cons, List.zipIdx_nil, Nat.zero_add, List.mem_singleton,
        Prod.mk.injEq] at hmem
      obtain ⟨rfl, rfl⟩ := hmem
      rw [story_of_not_begun _ _ _ (Nat.le_of_eq h.begun), story_of_all hpart, List.reverse_reverse,
        List.nil_append]
  · intro key
    rw [hafter, hrows, hask]
  · rw [hafter, hbegun, hcommitted, List.length_append, List.length_singleton]

theorem ask (h : Mirrored rows s) (hvalid : Validated s r) : Mirrored rows (s.ask r) := by
  cases hc : Event.committed? ⟨r, (s.db.step r).1⟩ with
  | none => exact h.ask_of_not_committed hc
  | some n =>
    obtain ⟨hr, t, ht, hcurrent⟩ := (life_step s.db r).committed_cases hc
    obtain rfl : r = .commit n := hr
    exact h.ask_of_committed ht hcurrent (hvalid t ht hcurrent)

theorem foldl_ask (h : Mirrored rows s) {rs : List Request} (hvalid : AllValidated s rs) :
    Mirrored rows (rs.foldl History.ask s) := by
  induction rs generalizing s with
  | nil => exact h
  | cons r rs ih => exact ih (h.ask hvalid.1) hvalid.2

end Mirrored

/-- **Undisturbed reads are serializable.** Take any requests of any number of transactions, at any
isolation levels, in any order. If every commit that succeeds finds that each row that its
transaction touched, also one that it only read, counts what it did when it was first seen, then the
transactions that commit are as if they had run one after another in the order of their commits. -/
theorem serializable_of_undisturbed (rows : Rows) (rs : List Request)
    (hvalid : AllValidated (.opening rows) rs) :
    EquivalentTo rows (.after rows rs) (committed (History.after rows rs).log) :=
  ((Mirrored.opening rows).foldl_ask hvalid).equivalent

/-- Two rows without fields, both at their first version. -/
def twoRows : Rows := (Table.empty.insert ("t", "a") (.new "a" [])).insert ("t", "b") (.new "b" [])

/-- A transaction of isolation level `SERIALIZABLE`. -/
def serializable : TransactionContext := ⟨.serializable, "transaction", 1, 1, false⟩

/-- Two transactions patch the same row, and the later commit fails; a third one reads what the
first one committed, and patches the other row. -/
theorem serializable_of_undisturbed_contended :
    let rs : List Request := [.begin serializable, .begin serializable, .fetch 0 "t" "a",
      .update 0 "t" "a" [] none,
      .update 1 "t" "a" [] (some 1), .commit 0, .commit 1, .begin serializable, .fetch 2 "t" "a",
      .update 2 "t" "b" [] none, .commit 2]
    AllValidated (.opening twoRows) rs ∧ committed (History.after twoRows rs).log = [0, 2] ∧
      EquivalentTo twoRows (.after twoRows rs) [0, 2] :=
  ⟨by decide, rfl, serializable_of_undisturbed twoRows _ (by decide)⟩

/-- The version of the row that an event read. -/
def Event.fetched? : Event → Option (Option UInt64)
  | ⟨.fetch _ _ _, .ok row⟩ => some (row.map Row.effectiveVersion)
  | _ => none

/-- Each of two transactions reads what the other one patches, and both commit: had one of them run
after the other, it would have read the patched row. -/
theorem write_skew_not_serializable :
    let rs : List Request := [.begin serializable, .begin serializable, .fetch 0 "t" "a",
      .fetch 1 "t" "b", .update 0 "t" "b" [] none, .update 1 "t" "a" [] none, .commit 0, .commit 1]
    committed (History.after twoRows rs).log = [0, 1] ∧
    ¬ Serializable twoRows (.after twoRows rs) := by
  intro rs
  refine ⟨rfl, ?_⟩
  rintro ⟨order, hperm, hequivalent⟩
  have hcommitted : committed (History.after twoRows rs).log = [0, 1] := rfl
  rw [hcommitted] at hperm
  have horder : order = [0, 1] ∨ order = [1, 0] := by
    have hlength : order.length = 2 := hperm.length_eq
    obtain ⟨m, n, rfl⟩ : ∃ m n, order = [m, n] := by
      rcases order with _ | ⟨m, _ | ⟨n, _ | ⟨k, rest⟩⟩⟩ <;> simp at hlength ⊢
    have hm : m = 0 ∨ m = 1 := by simpa using hperm.mem_iff.1 (List.mem_cons_self : m ∈ [m, n])
    have hn : n = 0 ∨ n = 1 := by
      simpa using hperm.mem_iff.1 (List.mem_cons_of_mem m List.mem_cons_self : n ∈ [m, n])
    have hne : m ≠ n := by
      have hnodup : [m, n].Nodup := hperm.nodup_iff.2 (by decide)
      simpa using hnodup
    rcases hm with rfl | rfl <;> rcases hn with rfl | rfl <;> simp_all
  rcases horder with rfl | rfl
  · have hread := congrArg (List.filterMap Event.fetched?) (hequivalent.answers 1 1 (by decide))
    exact absurd hread (by decide)
  · have hread := congrArg (List.filterMap Event.fetched?) (hequivalent.answers 0 1 (by decide))
    exact absurd hread (by decide)

end Database

end GuardedWrites

import GuardedWrites.Proofs.Database.Lifetime
import GuardedWrites.Proofs.Transaction.Runs

/-!
# Who may end a transaction

A handle gives access to a transaction, but not the means to end it. Only the program that began a
transaction asks for its commit or its rollback, so its number tells whose it is.

* `EndsOwn` — a program that ends only what it began; `EndsOwn.run` says that a run does so if its
  work does;
* `Recorded` — the events of a database in the log of a crowd are a history of it;
* `Recorded.begun_nodup` — no transaction is begun twice;
* `ended_by_beginner`, `closed_of_end` — a transaction is ended by the program that began it, and
  then it is closed for good.
-/

namespace GuardedWrites

open Shared
open Database (Event History)

variable {W : Service} {α β : Type}

namespace Deed

variable (home : Nat → Nat)

/-- What a deed was for database `d`. -/
def event? (d : Nat) : Deed (service W) → Option Event
  | .call (.database i r) x => if home i = d then some ⟨r, x⟩ else none
  | _ => none

/-- The transaction that a deed has begun: the number of its database, and its own number there. -/
def begun? : Deed (service W) → Option (Nat × Nat)
  | .call (.database i r) x => (Event.begun? ⟨r, x⟩).map fun n => (home i, n)
  | _ => none

/-- The transaction whose end a deed has asked for. -/
def ends? : Deed (service W) → Option (Nat × Nat)
  | .call (.database i r) _ => r.ends?.map fun n => (home i, n)
  | _ => none

/-- The transaction that a deed was a request to. -/
def tx? : Deed (service W) → Option (Nat × Nat)
  | .call (.database i r) _ => r.tx?.map fun n => (home i, n)
  | _ => none

variable {home}

theorem Aside.begun?_eq_none {d : Deed (service W)} (h : d.Aside) : d.begun? home = none := by
  cases d with
  | wait => rfl
  | call r x =>
    cases r with
    | database i r => exact h.elim
    | _ => rfl

theorem Aside.ends?_eq_none {d : Deed (service W)} (h : d.Aside) : d.ends? home = none := by
  cases d with
  | wait => rfl
  | call r x =>
    cases r with
    | database i r => exact h.elim
    | _ => rfl

theorem ends?_of_commit? {d : Deed (service W)} {t : Nat × Nat} (h : d.commit? home = some t) :
    d.ends? home = some t := by
  cases d with
  | wait => cases h
  | call r x =>
    cases r with
    | database i r =>
      cases r with
      | commit n =>
        cases x with
        | error e => cases h
        | ok u => exact h
      | _ => cases h
    | _ => cases h

theorem Aside.tx?_eq_none {d : Deed (service W)} (h : d.Aside) : d.tx? home = none := by
  cases d with
  | wait => rfl
  | call r x =>
    cases r with
    | database i r => exact h.elim
    | _ => rfl

theorem Aside.commit?_eq_none {d : Deed (service W)} (h : d.Aside) : d.commit? home = none := by
  cases d with
  | wait => rfl
  | call r x =>
    cases r with
    | database i r => exact h.elim
    | _ => rfl

theorem tx?_of_event? {x : Deed (service W)} {d n : Nat} {e : Event} (h : x.event? home d = some e)
    (he : e.request.tx? = some n) : x.tx? home = some (d, n) := by
  cases x with
  | wait => cases h
  | call r x =>
    cases r with
    | database i r =>
      simp only [Deed.event?] at h
      split at h
      · rename_i hi
        cases h
        simp only [Deed.tx?, he, Option.map_some, hi]
      · cases h
    | _ => cases h

theorem begun?_of_event? {x : Deed (service W)} {d n : Nat} {e : Event}
    (h : x.event? home d = some e) (he : e.begun? = some n) :
    x.begun? home = some (d, n) := by
  cases x with
  | wait => cases h
  | call r x =>
    cases r with
    | database i r =>
      simp only [Deed.event?] at h
      split at h
      · rename_i hi
        cases h
        simp only [Deed.begun?, he, Option.map_some, hi]
      · cases h
    | _ => cases h

theorem commit?_of_event? {x : Deed (service W)} {d n : Nat} {e : Event}
    (h : x.event? home d = some e) (he : e.committed? = some n) :
    x.commit? home = some (d, n) := by
  cases x with
  | wait => cases h
  | call r x =>
    cases r with
    | database i r =>
      simp only [Deed.event?] at h
      split at h
      · rename_i hi
        cases h
        cases r with
        | commit m =>
          cases x with
          | error e => cases he
          | ok u =>
            cases he
            simp only [Deed.commit?, hi]
        | _ => cases he
      · cases h
    | _ => cases h

theorem event?_of_ends? {d : Deed (service W)} {t : Nat × Nat} (h : d.ends? home = some t) :
    ∃ e, d.event? home t.1 = some e ∧ e.request.ends? = some t.2 := by
  cases d with
  | wait => cases h
  | call r x =>
    cases r with
    | database i r =>
      obtain ⟨n, hn, rfl⟩ := Option.map_eq_some_iff.1 h
      exact ⟨⟨r, x⟩, if_pos rfl, hn⟩
    | _ => cases h

end Deed

/-! ### Programs that end only what they began -/

/-- Notes which transactions a program began, and allows it to end these. -/
def ownership (home : Nat → Nat) :
    Program.Monitor (service W) (List (Nat × Nat)) := fun own d own' =>
  (∀ t, d.ends? home = some t → t ∈ own) ∧ own' = (d.begun? home).toList ++ own

/-- A program that ends no transaction but those that it began, and those in `own`. -/
def EndsOwn (home : Nat → Nat) (own : List (Nat × Nat)) (p : Program (service W) α) : Prop :=
  p.Obeys (ownership home) (fun _ _ => True) own

section Programs

variable {home : Nat → Nat} {own own' : List (Nat × Nat)} {p : Program (service W) α}

theorem ownership_aside (own : List (Nat × Nat)) {d : Deed (service W)} (hd : d.Aside) :
    ownership home own d own := by
  refine ⟨fun t ht => ?_, ?_⟩
  · rw [hd.ends?_eq_none] at ht
    cases ht
  · rw [hd.begun?_eq_none]
    rfl

theorem ownership_call (own : List (Nat × Nat)) (r : Request W) (x : Reply W r) (hr : r.Aside) :
    ownership home own (.call (S := service W) r x) own := by
  refine ownership_aside own ?_
  cases r with
  | database i r => exact hr.elim
  | _ => trivial

/-- Who owns more may end as much, and keeps what it has. -/
theorem EndsOwn.obeys (h : EndsOwn home own p) (hown : own ⊆ own') :
    p.Obeys (ownership home) (fun m _ => own' ⊆ m) own' := by
  refine Program.Obeys.simulate (T := fun m n => m ⊆ n ∧ own' ⊆ n) (fun m n d m' hT hm => ?_)
    (fun m n _ hT _ => hT.2) h ⟨hown, List.Subset.refl _⟩
  obtain ⟨hends, rfl⟩ := hm
  refine ⟨_, ⟨fun t ht => hT.1 (hends t ht), rfl⟩, fun t ht => ?_, fun t ht =>
    List.mem_append_right _ (hT.2 ht)⟩
  rcases List.mem_append.1 ht with ht | ht
  · exact List.mem_append_left _ ht
  · exact List.mem_append_right _ (hT.1 ht)

theorem EndsOwn.mono (h : EndsOwn home own p) (hown : own ⊆ own') : EndsOwn home own' p :=
  (h.obeys hown).mono fun _ _ _ => trivial

theorem EndsOwn.bind {f : α → Program (service W) β} (hp : EndsOwn home own p)
    (hf : ∀ a, EndsOwn home own (f a)) :
    EndsOwn home own (p.bind f) :=
  (hp.obeys (List.Subset.refl own)).bind fun _ a hm => (hf a).mono hm

/-- A request to a database that is not for the end of a transaction. -/
theorem endsOwn_ask {i : Nat} {r : TransactionalStore.Request} (hr : r.ends? = none) :
    EndsOwn home own (.ask (S := service W) (.database i r)) := by
  refine fun x => ⟨_, ⟨fun t ht => ?_, rfl⟩, trivial⟩
  simp [Deed.ends?, hr] at ht

variable {ε : Type} [TransactionFailure ε] {R : Runner (Action W)} {spec : RunSpec}
variable {work : Handle → Action W (Except ε α)}

/-- An attempt ends its own transaction, and no other that its work does not. -/
theorem endsOwn_attempt (hR : Discreet R) (context : TransactionContext)
    (hwork : ∀ h scope, EndsOwn home [] (work h scope)) (scope : Scope) :
    EndsOwn home own (R.attempt context work scope) := by
  rw [Runs.attempt_eq hR]
  intro x
  have hbegin : ownership home own (.call (S := service W) (.database R.store (.begin context)) x)
      ((Deed.begun? home (.call (S := service W) (.database R.store (.begin context)) x)).toList ++
        own) := by
    refine ⟨fun t ht => ?_, rfl⟩
    cases ht
  refine ⟨_, hbegin, ?_⟩
  cases x with
  | error e => trivial
  | ok tx =>
    have hmine : ∀ m, (home R.store, tx) :: own ⊆ m →
        ∀ t, some (home R.store, tx) = some t → t ∈ m := by
      intro m hm t ht
      obtain rfl := Option.some.inj ht
      exact hm List.mem_cons_self
    refine ((hwork _ _).obeys (List.nil_subset _)).bind fun m r hm => ?_
    cases r with
    | error e => exact fun y => ⟨m, ⟨hmine m hm, rfl⟩, trivial⟩
    | ok a => exact fun y => ⟨_, ⟨hmine m hm, rfl⟩, trivial⟩

/-- A run ends only what it began if its work does, whether it joins the transaction around it or
not. -/
theorem EndsOwn.run (hR : Discreet R) (hwork : ∀ h scope, EndsOwn home [] (work h scope))
    (scope : Scope) :
    EndsOwn home own (R.run spec work scope) := by
  cases hscope : scope.filter fun h : Handle => h.store == R.store with
  | some handle =>
    rw [Provenance.run_of_enclosed spec hscope]
    exact (hwork handle scope).mono (List.nil_subset _)
  | none =>
    exact Runs.obeys_run (I := fun _ => True) (P := Request.Aside) ownership_call
      (fun own => ownership_aside own trivial) hR.observes
      (fun n own _ => endsOwn_attempt hR (spec.context n) hwork scope) (fun _ _ _ => trivial)
      (by simp [Provenance.joins, hscope]) trivial

end Programs

/-! ### What the deeds of such a program are -/

section Deeds

variable {home : Nat → Nat} {own own' : List (Nat × Nat)} {ds : List (Deed (service W))}
variable {t : Nat × Nat}

theorem mem_of_accepts (h : Program.Accepts (ownership home) own ds own') (ht : t ∈ own') :
    t ∈ own ∨ ∃ d ∈ ds, d.begun? home = some t := by
  induction ds generalizing own with
  | nil =>
    obtain rfl := h
    exact .inl ht
  | cons d ds ih =>
    obtain ⟨m, ⟨-, rfl⟩, h⟩ := h
    rcases ih h with hmem | ⟨d', hd', hbegun⟩
    · rcases List.mem_append.1 hmem with hmem | hmem
      · exact .inr ⟨d, List.mem_cons_self, Option.mem_toList.1 hmem⟩
      · exact .inl hmem
    · exact .inr ⟨d', List.mem_cons_of_mem _ hd', hbegun⟩

/-- The deeds of a program that ends only what it began: before each end there is the begin. -/
theorem EndsOwn.begun_before {p q : Program (service W) α} (h : EndsOwn home [] p)
    {before after : List (Deed (service W))} {d : Deed (service W)}
    (hp : p.Takes (before ++ d :: after) q) (hd : d.ends? home = some t) :
    ∃ d' ∈ before, d'.begun? home = some t := by
  obtain ⟨own', haccepts, -⟩ := Program.Obeys.takes h hp
  obtain ⟨m, hm, m', ⟨hends, -⟩, -⟩ := Program.accepts_append.1 haccepts
  rcases mem_of_accepts hm (hends t hd) with hnil | hbegun
  · exact absurd hnil List.not_mem_nil
  · exact hbegun

end Deeds

/-! ### The history of a database in a crowd -/

/-- The events of database `d` in a list of deeds. -/
def events (home : Nat → Nat) (d : Nat) (ds : List (Deed (service W))) : List Event :=
  ds.filterMap (Deed.event? home d)

/-- The deeds of a log, the latest first. -/
def deedsOf (log : List (Step (service W) (Circumstances W))) : List (Deed (service W)) :=
  log.map (·.deed)

/-- Databases that have only their rows, and no record. -/
def Shared.opening (rows : Nat → Rows) (interval : Nat) : Shared :=
  ⟨fun d => (History.opening (rows d)).db, .empty interval⟩

/-- Each database in a crowd has the history that the log tells. -/
def Recorded (home : Nat → Nat) (rows : Nat → Rows)
    (c : Crowd (service W) Shared (Circumstances W) α) : Prop :=
  ∀ d, ∃ rs, (⟨c.state.databases d, events home d (deedsOf c.log)⟩ : History) =
    History.after (rows d) rs

section Crowds

variable {home : Nat → Nat} {rows : Nat → Rows} {c : Crowd (service W) Shared (Circumstances W) α}
variable {log : List (Step (service W) (Circumstances W))} {t : Nat × Nat}

/-- What a step does to one database: nothing, or it answers a request. -/
theorem database_of_next? {o : Circumstances W} {p p' : Program (service W) α}
    {x : Deed (service W)} {s s' : Shared} (hn : p.next? (setting home) o s = some (x, p', s'))
    (d : Nat) :
    (x.event? home d = none ∧ s'.databases d = s.databases d) ∨
      ∃ r, x.event? home d = some ⟨r, ((s.databases d).step r).1⟩ ∧
        s'.databases d = ((s.databases d).step r).2 := by
  rcases Program.next?_cases hn with ⟨r, k, rfl, rfl, rfl, rfl⟩ | ⟨rfl, rfl, -⟩
  · cases r with
    | database i r =>
      by_cases hi : home i = d
      · refine .inr ⟨r, ?_, ?_⟩
        · subst hi
          exact if_pos rfl
        · subst hi
          exact Shared.databases_database (o := o) i r
      · exact .inl ⟨if_neg hi, Shared.databases_database_of_ne (o := o) i r fun e => hi e.symm⟩
    | records r => exact .inl ⟨rfl, rfl⟩
    | now => exact .inl ⟨rfl, rfl⟩
    | other r => exact .inl ⟨rfl, rfl⟩
  · exact .inl ⟨rfl, rfl⟩

/-- A request that a program sends to a database is answered by it. -/
theorem next?_database {store : Nat} {p p' : Program (service W) α} {o : Circumstances W}
    {s s' : Shared} {q : TransactionalStore.Request} {x : TransactionalStore.service.Reply q}
    (hn : p.next? (setting home) o s = some (.call (.database store q) x, p', s')) :
    ((s.databases (home store)).step q).1 = x ∧
    s'.databases (home store) = ((s.databases (home store)).step q).2 := by
  obtain ⟨hx, rfl⟩ := Program.answer_of_next? hn
  exact ⟨hx.symm, databases_database (o := o) store q⟩

theorem events_cons_of_none {d : Nat} {x : Deed (service W)} (h : x.event? home d = none)
    (ds : List (Deed (service W))) :
    events home d (x :: ds) = events home d ds := List.filterMap_cons_none h

theorem events_cons_of_some {d : Nat} {x : Deed (service W)} {e : Event}
    (h : x.event? home d = some e) (ds : List (Deed (service W))) :
    events home d (x :: ds) = e :: events home d ds :=
  List.filterMap_cons_some h

theorem Recorded.advance {who : Nat} {o : Circumstances W} {p p' : Program (service W) α}
    {x : Deed (service W)} {s' : Shared} (h : Recorded home rows c)
    (hn : p.next? (setting home) o c.state = some (x, p', s')) :
    Recorded home rows (c.advance who o x p' s') := by
  intro d
  obtain ⟨rs, hrs⟩ := h d
  show ∃ rs, (⟨s'.databases d, events home d (x :: deedsOf c.log)⟩ : History) =
    History.after (rows d) rs
  rcases database_of_next? hn d with ⟨hx, hs'⟩ | ⟨r, hx, hs'⟩
  · refine ⟨rs, ?_⟩
    rw [events_cons_of_none hx, hs', hrs]
  · refine ⟨rs ++ [r], ?_⟩
    rw [events_cons_of_some hx, hs', History.after_concat, ← hrs]
    rfl

theorem recorded_play (home : Nat → Nat) (rows : Nat → Rows) (interval : Nat)
    (tasks : Nat → Option (Program (service W) α)) (ms : List (Move (Circumstances W))) :
    Recorded home rows ((Crowd.start (.opening rows interval) tasks).play (setting home) ms) :=
  Crowd.play_invariant (I := Recorded home rows) (fun _ _ _ _ _ _ _ hc _ hn => hc.advance hn)
    (fun _ _ hc => hc) (fun _ => ⟨[], rfl⟩) ms

/-- So what is known of every history is known of each database. -/
theorem Recorded.invariant (hc : Recorded home rows c) (d : Nat) :
    History.Invariant (rows d) ⟨c.state.databases d, events home d (deedsOf c.log)⟩ := by
  obtain ⟨rs, hrs⟩ := hc d
  rw [hrs]
  exact History.invariant_after (rows d) rs

/-- The transactions that a log has begun, the latest first. -/
def begun (home : Nat → Nat) (log : List (Step (service W) (Circumstances W))) : List (Nat × Nat) :=
  log.filterMap fun e => e.deed.begun? home

theorem mem_begun :
    t ∈ begun home log ↔ ∃ e ∈ log, e.deed.begun? home = some t := List.mem_filterMap

/-- The number of a transaction, if it is one of database `d`. -/
def numberIn (d : Nat) (t : Nat × Nat) : Option Nat := if t.1 = d then some t.2 else none

theorem begun?_event? (home : Nat → Nat) (d : Nat) (x : Deed (service W)) :
    (x.event? home d).bind Event.begun? = (x.begun? home).bind (numberIn d) := by
  cases x with
  | wait => rfl
  | call r x =>
    cases r with
    | database i r =>
      by_cases hi : home i = d
      · cases hb : Event.begun? ⟨r, x⟩ <;> simp [Deed.event?, Deed.begun?, numberIn, hi, hb]
      · cases hb : Event.begun? ⟨r, x⟩ <;> simp [Deed.event?, Deed.begun?, numberIn, hi, hb]
    | _ => rfl

/-- Of the transactions that a log has begun, those of one database are the numbers that it gave
out. -/
theorem begins_events (home : Nat → Nat) (d : Nat)
    (log : List (Step (service W) (Circumstances W))) :
    Database.begins (events home d (deedsOf log)) = (begun home log).filterMap (numberIn d) := by
  simp only [Database.begins, events, deedsOf, begun, List.filterMap_filterMap, List.filterMap_map]
  exact congrArg (List.filterMap · log) (funext fun e => begun?_event? home d e.deed)

/-- Pairs are all different if in each place the numbers are. -/
theorem nodup_of_numberIn {ts : List (Nat × Nat)} (h : ∀ d, (ts.filterMap (numberIn d)).Nodup) :
    ts.Nodup := by
  induction ts with
  | nil => exact List.nodup_nil
  | cons t ts ih =>
    refine List.nodup_cons.2 ⟨fun ht => ?_, ih fun d => (h d).sublist ?_⟩
    · have hown : numberIn t.1 t = some t.2 := if_pos rfl
      have hcons := h t.1
      rw [List.filterMap_cons_some hown] at hcons
      exact (List.nodup_cons.1 hcons).1 (List.mem_filterMap.2 ⟨t, ht, hown⟩)
    · exact (List.sublist_cons_self t ts).filterMap _

/-- No transaction is begun twice. -/
theorem Recorded.begun_nodup (h : Recorded home rows c) : (begun home c.log).Nodup := by
  refine nodup_of_numberIn fun d => ?_
  obtain ⟨rs, hrs⟩ := h d
  rw [← begins_events]
  have hbegins := History.begins_after (rows d) rs
  rw [← hrs] at hbegins
  rw [hbegins]
  exact (List.reverse_perm _).nodup_iff.2 List.nodup_range

/-- Two steps that began the same transaction are the same. -/
theorem eq_of_begun (h : (begun home log).Nodup) {e e' : Step (service W) (Circumstances W)}
    (he : e ∈ log) (he' : e' ∈ log) (hb : e.deed.begun? home = some t)
    (hb' : e'.deed.begun? home = some t) :
    e = e' := by
  induction log with
  | nil => exact absurd he List.not_mem_nil
  | cons f log ih =>
    have hrest : (begun home log).Nodup := h.sublist ((List.sublist_cons_self f log).filterMap _)
    have hnot : ∀ {g : Step (service W) (Circumstances W)}, g ∈ log → g.deed.begun? home = some t →
        f.deed.begun? home = some t → False := by
      intro g hg hgb hfb
      have hcons : (begun home (f :: log)) = t :: begun home log := List.filterMap_cons_some hfb
      rw [hcons] at h
      exact (List.nodup_cons.1 h).1 (mem_begun.2 ⟨g, hg, hgb⟩)
    rcases List.mem_cons.1 he with rfl | hmem
    · rcases List.mem_cons.1 he' with rfl | hmem'
      · rfl
      · exact (hnot hmem' hb' hb).elim
    · rcases List.mem_cons.1 he' with rfl | hmem'
      · exact (hnot hmem hb hb').elim
      · exact ih hrest hmem hmem'

theorem deeds_append (who : Nat) (later earlier : List (Step (service W) (Circumstances W))) :
    Crowd.deeds who (later ++ earlier) = Crowd.deeds who earlier ++ Crowd.deeds who later := by
  simp [Crowd.deeds]

end Crowds

/-! ### Whose a transaction is -/

/-- A point in a schedule of programs that end only what they began, on databases that had only
their rows. -/
structure Orderly (home : Nat → Nat) (rows : Nat → Rows)
    (tasks : Nat → Option (Program (service W) α))
    (c : Crowd (service W) Shared (Circumstances W) α) : Prop where
  owners : ∀ i p, tasks i = some p → EndsOwn home [] p
  reached : ∃ interval ms, c = (Crowd.start (.opening rows interval) tasks).play (setting home) ms

namespace Orderly

variable {home : Nat → Nat} {rows : Nat → Rows} {t : Nat × Nat}
variable {tasks : Nat → Option (Program (service W) α)}
variable {c : Crowd (service W) Shared (Circumstances W) α}
variable {e b : Step (service W) (Circumstances W)}

theorem play (h : Orderly home rows tasks c) (ms : List (Move (Circumstances W))) :
    Orderly home rows tasks (c.play (setting home) ms) := by
  obtain ⟨interval, ms', rfl⟩ := h.reached
  exact ⟨h.owners, interval, ms' ++ ms, (Crowd.play_append _ ms' ms).symm⟩

theorem recorded (h : Orderly home rows tasks c) : Recorded home rows c := by
  obtain ⟨interval, ms, rfl⟩ := h.reached
  exact recorded_play home rows interval tasks ms

/-- One program that ends only what it began, among others. -/
theorem of_task {who : Nat} {p : Program (service W) α} (hwho : tasks who = some p)
    (hp : EndsOwn home [] p) (hothers : ∀ i q, i ≠ who → tasks i = some q → EndsOwn home [] q)
    (interval : Nat) (ms : List (Move (Circumstances W))) :
    Orderly home rows tasks
      ((Crowd.start (.opening rows interval) tasks).play (setting home) ms) := by
  refine ⟨fun i q hq => ?_, interval, ms, rfl⟩
  by_cases hi : i = who
  · subst hi
    rw [hwho, Option.some.injEq] at hq
    exact hq ▸ hp
  · exact hothers i q hi hq

/-- The deeds of each program are a path through it. -/
theorem path (h : Orderly home rows tasks c) (i : Nat) : Crowd.OnPath tasks c i := by
  obtain ⟨interval, ms, rfl⟩ := h.reached
  exact Crowd.takes_play _ tasks ms i

/-- A program that was there at the start has gone along its deeds. -/
theorem takes (h : Orderly home rows tasks c) {who : Nat} {p : Program (service W) α}
    (hwho : tasks who = some p) :
    ∃ q, p.Takes (Crowd.deeds who c.log) q ∧ ∀ q', c.tasks who = some q' → q' = q := by
  rcases h.path who with ⟨hnone, -⟩ | ⟨p', q, hp', htakes, hq⟩
  · rw [hwho] at hnone
    cases hnone
  · rw [hwho, Option.some.injEq] at hp'
    exact ⟨q, hp' ▸ htakes, hq⟩

/-- Before the end of a transaction its program has begun it. -/
theorem begun_before (h : Orderly home rows tasks c)
    {later earlier : List (Step (service W) (Circumstances W))}
    (hlog : c.log = later ++ e :: earlier) (he : e.deed.ends? home = some t) :
    ∃ e' ∈ earlier, e'.who = e.who ∧ e'.deed.begun? home = some t := by
  have hdeeds : Crowd.deeds e.who c.log =
      Crowd.deeds e.who earlier ++ e.deed :: Crowd.deeds e.who later := by
    rw [hlog, deeds_append, Crowd.deeds_cons_self, List.append_assoc]
    rfl
  rcases h.path e.who with ⟨-, -, hnil⟩ | ⟨p, q, hp, htakes, -⟩
  · rw [hdeeds] at hnil
    simp at hnil
  · rw [hdeeds] at htakes
    obtain ⟨d, hd, hbegun⟩ := (h.owners e.who p hp).begun_before htakes he
    obtain ⟨e', he', hwho, rfl⟩ := Crowd.mem_deeds.1 hd
    exact ⟨e', he', hwho, hbegun⟩

/-- A transaction is ended by the program that began it. -/
theorem ended_by_beginner (h : Orderly home rows tasks c) (hb : b ∈ c.log) (he : e ∈ c.log)
    (hbegun : b.deed.begun? home = some t) (hends : e.deed.ends? home = some t) :
    e.who = b.who := by
  obtain ⟨later, earlier, hlog⟩ := List.append_of_mem he
  obtain ⟨e', he', hwho, hbegun'⟩ := h.begun_before hlog hends
  have hmem : e' ∈ c.log := by
    rw [hlog]
    exact List.mem_append_right _ (List.mem_cons_of_mem _ he')
  rw [← hwho, eq_of_begun h.recorded.begun_nodup hmem hb hbegun' hbegun]

/-- A transaction whose end was asked for is closed. -/
theorem closed_of_end (h : Orderly home rows tasks c) (he : e ∈ c.log)
    (hends : e.deed.ends? home = some t) :
    (c.state.databases t.1).Closed t.2 := by
  obtain ⟨later, earlier, hlog⟩ := List.append_of_mem he
  obtain ⟨e', he', -, hbegun⟩ := h.begun_before hlog hends
  have hnumber : t.2 ∈ Database.begins (events home t.1 (deedsOf earlier)) := by
    rw [begins_events]
    exact List.mem_filterMap.2 ⟨t, mem_begun.2 ⟨e', he', hbegun⟩, if_pos rfl⟩
  obtain ⟨ev, hev, hevends⟩ := Deed.event?_of_ends? hends
  have hended : Database.Ended t.2 (events home t.1 (deedsOf c.log)) := by
    have hsplit : events home t.1 (deedsOf c.log) =
        events home t.1 (deedsOf later) ++ ev :: events home t.1 (deedsOf earlier) := by
      simp [hlog, events, deedsOf, hev]
    have hhere : Database.Ended t.2 (ev :: events home t.1 (deedsOf earlier)) :=
        Or.inl ⟨hevends, hnumber⟩
    rw [hsplit]
    exact hhere.append _
  obtain ⟨rs, hrs⟩ := h.recorded t.1
  have hclosed := History.closed_of_ended (rows t.1) rs t.2
  rw [← hrs] at hclosed
  exact hclosed hended

end Orderly

end GuardedWrites

import GuardedWrites.Proofs.Database.Serial
import GuardedWrites.Proofs.Transaction.Backing
import GuardedWrites.Proofs.Transaction.Ownership

/-!
# All or nothing

A run works in several transactions, one for each attempt, while others commit in between. If it
returns a value, the transaction of its last attempt was committed and no other one of it; if it
fails, none was. A commit makes of each row what the writes through the handle make of it, and a
handle whose transaction has ended fails and changes nothing.

* `Ran.only_ending` — the transaction of an attempt is ended by that attempt alone, after its work;
* `committed_iff` — it is committed exactly if the attempt succeeded;
* `Exact` — what is committed are the writes made through the handle;
* `run_all_or_nothing` — every run of every work in every schedule.
-/

namespace GuardedWrites

open Shared
open Database (Event History RowChange writes)

variable {W : Service} {ε α ρ : Type} {home : Nat → Nat}

/-- The transaction of a handle: the number of its database, and its own number there. -/
def Handle.transaction (home : Nat → Nat) (h : Handle) : Nat × Nat := (home h.store, h.tx)

/-- A request to a transaction fails, and nothing changes. -/
def Refuses (home : Nat → Nat) (s : Shared) (t : Nat × Nat) : Prop :=
  ∀ (o : Circumstances W) i r, home i = t.1 → r.tx? = some t.2 →
    (setting home).answer o (.database i r) s = (.error .finished, s)

theorem refuses_of_closed {s : Shared} {t : Nat × Nat} (h : (s.databases t.1).Closed t.2) :
    Refuses (W := W) home s t := by
  intro o i r hi hr
  obtain ⟨databases, records⟩ := s
  simp only [setting, Shared.step]
  rw [hi, h.refuses hr]
  refine congrArg (Prod.mk _) (congrArg (Shared.mk · records) (funext fun j => ?_))
  by_cases hj : j = t.1
  · rw [if_pos hj, hj]
  · rw [if_neg hj]

/-! ### The ends among the deeds of a run -/

/-- What is ended among some deeds was begun among them. -/
def Owned (home : Nat → Nat) (ds : List (Deed (service W))) : Prop :=
  ∀ d ∈ ds, ∀ t, d.ends? home = some t → ∃ b ∈ ds, b.begun? home = some t

theorem Owned.append {ds es : List (Deed (service W))} (hds : Owned home ds) (hes : Owned home es) :
    Owned home (ds ++ es) := by
  intro d hd t ht
  rcases List.mem_append.1 hd with hd | hd
  · obtain ⟨b, hb, hbegun⟩ := hds d hd t ht
    exact ⟨b, List.mem_append_left _ hb, hbegun⟩
  · obtain ⟨b, hb, hbegun⟩ := hes d hd t ht
    exact ⟨b, List.mem_append_right _ hb, hbegun⟩

theorem owned_of_aside {ds : List (Deed (service W))} (h : ∀ d ∈ ds, d.Aside) : Owned home ds := by
  intro d hd t ht
  rw [(h d hd).ends?_eq_none] at ht
  cases ht

theorem EndsOwn.owned {p q : Program (service W) α} {ds : List (Deed (service W))}
    (h : EndsOwn home [] p) (hp : p.Takes ds q) :
    Owned home ds := by
  intro d hd t ht
  obtain ⟨before, after, rfl⟩ := List.append_of_mem hd
  obtain ⟨b, hb, hbegun⟩ := h.begun_before hp ht
  exact ⟨b, List.mem_append_left _ hb, hbegun⟩

namespace Attempt

theorem begun?_begin (home : Nat → Nat) (h : Handle) :
    Deed.begun? home (.call (S := service W) (.database h.store (.begin h.context)) (.ok h.tx)) =
      some (h.transaction home) := rfl

theorem ends?_ending (home : Nat → Nat) (h : Handle) (reply : Except StoreError Unit)
    (v : Except ε α) :
    Deed.ends? home (ending (W := W) h reply v) = some (h.transaction home) := by
  cases v <;> rfl

/-- The end of an attempt commits its transaction exactly if the attempt succeeded. -/
theorem commit?_ending [TransactionFailure ε] (home : Nat → Nat) (h : Handle)
    (ds : List (Deed (service W))) (v : Except ε α) (reply : Except StoreError Unit) :
    Deed.commit? home (ending (W := W) h reply v) = some (h.transaction home) ↔
      ∃ a, (worked h ds v reply).result = .ok a := by
  cases v with
  | error e => simp [ending, Deed.commit?, result]
  | ok a =>
    cases reply with
    | error e => simp [ending, Deed.commit?, result]
    | ok u => simp [ending, Deed.commit?, result, Handle.transaction]

variable {store : Nat} {work : Handle → Action W (Except ε α)} {context : TransactionContext}
variable {t : Attempt W ε α}

theorem Made.owned (hwork : ∀ h scope, EndsOwn home [] (work h scope))
    (ht : Made store work context t) :
    Owned home (t.deeds store) := by
  cases ht with
  | refused e =>
    intro d hd t ht
    rw [List.mem_singleton.1 hd] at ht
    cases ht
  | worked tx ds v reply hds =>
    have howned := (hwork _ _).owned hds
    intro d hd t ht
    rcases List.mem_cons.1 hd with rfl | hd
    · cases ht
    · rcases List.mem_append.1 hd with hd | hd
      · obtain ⟨b, hb, hbegun⟩ := howned d hd t ht
        exact ⟨b, List.mem_cons_of_mem _ (List.mem_append_left _ hb), hbegun⟩
      · -- the end is of the transaction that the first deed has begun
        rw [List.mem_singleton.1 hd, ends?_ending, Option.some.injEq] at ht
        exact ⟨_, List.mem_cons_self, ht ▸ begun?_begin home ⟨store, tx, context⟩⟩

end Attempt

variable [TransactionFailure ε] {R : Runner (Action W)} {spec : RunSpec}
variable {work : Handle → Action W (Except ε α)} {n : Nat} {ts : List (Attempt W ε α)}
variable {ds : List (Deed (service W))} {r : Except ε α} {t : Attempt W ε α}

namespace Ran

theorem owned (h : Ran R spec work n ts ds r) (hwork : ∀ h scope, EndsOwn home [] (work h scope)) :
    Owned home ds := by
  induction h with
  | last ht hbefore hafter =>
    exact ((owned_of_aside hbefore).append (ht.owned hwork)).append (owned_of_aside hafter)
  | more ht _ _ hbefore hbetween _ ih =>
    exact (((owned_of_aside hbefore).append (ht.owned hwork)).append
      (owned_of_aside hbetween)).append ih

/-- An attempt among the deeds of its run. -/
theorem split (h : Ran R spec work n ts ds r) (hwork : ∀ h scope, EndsOwn home [] (work h scope))
    (ht : t ∈ ts) :
    ∃ i before after, t.Made R.store work (spec.context i) ∧
      ds = before ++ (t.deeds R.store ++ after) ∧
      Owned home before ∧ Owned home after := by
  induction h with
  | @last n u before after hu hbefore hafter =>
    obtain rfl := List.mem_singleton.1 ht
    exact ⟨n, before, after, hu, List.append_assoc _ _ _, owned_of_aside hbefore,
      owned_of_aside hafter⟩
  | @more n u us before between ds e r hu _ _ hbefore hbetween hrest ih =>
    rcases List.mem_cons.1 ht with rfl | ht
    · exact ⟨n, before, between ++ ds, hu, by simp, owned_of_aside hbefore,
        (owned_of_aside hbetween).append (hrest.owned hwork)⟩
    · obtain ⟨i, before', after, hmade, rfl, hbefore', hafter⟩ := ih ht
      refine ⟨i, before ++ u.deeds R.store ++ between ++ before', after, hmade, by simp, ?_, hafter⟩
      exact (((owned_of_aside hbefore).append (hu.owned hwork)).append
        (owned_of_aside hbetween)).append hbefore'

/-- The last attempt has the result of the run, and all others have failed. -/
theorem result_last (h : Ran R spec work n ts ds r) :
    ∃ earlier last, ts = earlier ++ [last] ∧ r = last.result ∧
      ∀ t ∈ earlier, ∃ e, t.result = .error e := by
  induction h with
  | @last n t _ _ _ _ _ => exact ⟨[], t, rfl, rfl, fun _ h => absurd h List.not_mem_nil⟩
  | @more n t _ _ _ _ e _ _ hfailed _ _ _ _ ih =>
    obtain ⟨earlier, last, rfl, hr, hearlier⟩ := ih
    exact ⟨t :: earlier, last, rfl, hr, List.forall_mem_cons.2 ⟨⟨e, hfailed⟩, hearlier⟩⟩

/-- Only an attempt whose work and whose commit succeeded has a value. -/
theorem result_ok {a : α} (h : Ran R spec work n ts ds (.ok a)) :
    ∃ earlier k ws, ts = earlier ++ [.worked k ws (.ok a) (.ok ())] ∧
      ∀ t ∈ earlier, ∃ e, t.result = .error e := by
  obtain ⟨earlier, last, rfl, hr, hearlier⟩ := h.result_last
  rcases last with ⟨context, x⟩ | ⟨k, ws, e | a', e' | u⟩
  · cases hr
  · cases hr
  · cases hr
  · cases hr
  · cases hr
    exact ⟨earlier, k, ws, rfl, hearlier⟩

/-- If a run failed, all its attempts have failed. -/
theorem result_error {e : ε} (h : Ran R spec work n ts ds (.error e)) (ht : t ∈ ts) :
    ∃ e', t.result = .error e' := by
  obtain ⟨earlier, last, rfl, hr, hearlier⟩ := h.result_last
  rcases List.mem_append.1 ht with ht | ht
  · exact hearlier t ht
  · exact ⟨e, by rw [List.mem_singleton.1 ht, ← hr]⟩

/-- The transaction of an attempt is ended by that attempt alone, after its work. -/
theorem only_ending (h : Ran R spec work n ts ds r)
    (hwork : ∀ h scope, EndsOwn home [] (work h scope))
    (honce : (ds.filterMap (Deed.begun? home)).Nodup) {k : Handle} {ws : List (Deed (service W))}
    {v : Except ε α} {reply : Except StoreError Unit} (ht : .worked k ws v reply ∈ ts)
    {d : Deed (service W)} (hd : d ∈ ds) (hends : d.ends? home = some (k.transaction home)) :
    d = Attempt.ending k reply v := by
  obtain ⟨i, before, after, hmade, rfl, hbefore, hafter⟩ := h.split hwork ht
  cases hmade with
  | worked tx ws v reply hws =>
    have howned := (hwork _ _).owned hws
    -- whoever ends the transaction elsewhere would have begun it there once more
    simp only [Attempt.deeds, List.filterMap_append, List.filterMap_cons, List.filterMap_nil,
      List.cons_append, Attempt.begun?_begin home ⟨R.store, tx, spec.context i⟩] at honce
    have hnot : ∀ es, Owned home es → d ∈ es →
        Handle.transaction home ⟨R.store, tx, spec.context i⟩ ∈
          es.filterMap (Deed.begun? home) := by
      intro es hes hd
      exact List.mem_filterMap.2 (hes d hd _ hends)
    obtain ⟨-, hrest, hbeforeRest⟩ := List.nodup_append.1 honce
    have hself := (List.nodup_cons.1 hrest).1
    simp only [Attempt.deeds, List.mem_append, List.mem_cons, List.not_mem_nil, or_false] at hd
    rcases hd with hd | (rfl | hd | rfl) | hd
    · exact absurd rfl (hbeforeRest _ (hnot before hbefore hd) _ List.mem_cons_self)
    · cases hends
    · exact absurd (List.mem_append_left _ (List.mem_append_left _ (hnot ws howned hd))) hself
    · rfl
    · exact absurd (List.mem_append_right _ (hnot after hafter hd)) hself

end Ran

/-! ### What is committed -/

/-- At some point of a schedule a program commits the transaction of a handle, and every row becomes
what the writes made through the handle until then make of it. If no other program uses the handle,
these are the writes among `ws`. -/
def Exact (home : Nat → Nat) (who : Nat) (start : Crowd (service W) Shared (Circumstances W) ρ)
    (ms : List (Move (Circumstances W))) (h : Handle) (ws : List (Deed (service W))) : Prop :=
  ∃ ms₁ o ms₂, ms = ms₁ ++ .step who o :: ms₂ ∧
    let before := start.play (setting home) ms₁
    let after := before.move (setting home) (.step who o)
    let written := fun key => writes h.tx key (events home (home h.store) (deedsOf before.log))
    after.log = ⟨who, o, .call (.database h.store (.commit h.tx)) (.ok ())⟩ :: before.log ∧
    (∀ key, RowChange (written key) ((before.state.databases (home h.store)).rows.get? key)
      ((after.state.databases (home h.store)).rows.get? key)) ∧
    ((∀ e ∈ before.log, e.deed.tx? home = some (h.transaction home) → e.who = who) →
      ∀ key, written key = writes h.tx key (events home (home h.store) ws.reverse))

theorem writes_append (n : Nat) (key : RowKey) (es es' : List Event) :
    writes n key (es ++ es') = writes n key es' ++ writes n key es := by
  induction es with
  | nil => simp [writes]
  | cons e es ih => rw [List.cons_append, writes, ih, writes, List.append_assoc]

/-- The writes to a transaction that only one program uses are among the deeds of that program. -/
theorem writes_of_private {who d n : Nat} {log : List (Step (service W) (Circumstances W))}
    (hprivate : ∀ e ∈ log, e.deed.tx? home = some (d, n) → e.who = who) (key : RowKey) :
    writes n key (events home d (deedsOf log)) =
      writes n key (events home d (Crowd.deeds who log).reverse) := by
  induction log with
  | nil => rfl
  | cons e log ih =>
    obtain ⟨he, hlog⟩ := List.forall_mem_cons.1 hprivate
    have hcons : ∀ ds, events home d (e.deed :: ds) = (e.deed.event? home d).toList ++
        events home d ds := by
      intro ds
      cases hev : e.deed.event? home d <;> simp [events, hev]
    rw [show deedsOf (e :: log) = e.deed :: deedsOf log from rfl, hcons, writes_append, ih hlog]
    by_cases hwho : e.who = who
    · subst hwho
      rw [show e :: log = ⟨e.who, e.circumstances, e.deed⟩ :: log from rfl, Crowd.deeds_cons_self,
        List.reverse_append, List.reverse_singleton, List.singleton_append, hcons, writes_append]
    · rw [Crowd.deeds_cons_of_ne hwho]
      have hnone : writes n key (e.deed.event? home d).toList = [] := by
        cases hev : e.deed.event? home d with
        | none => rfl
        | some ev =>
          cases hw : ev.write? n key with
          | none => simp [writes, hw]
          | some w => exact absurd (he (Deed.tx?_of_event? hev (Database.tx?_of_write? hw))) hwho
      rw [hnone, List.append_nil]

section Point

variable {rows : Nat → Rows} {tasks : Nat → Option (Program (service W) ρ)} {interval who : Nat}
variable {ms : List (Move (Circumstances W))} {h : Handle}
variable {later earlier : List (Step (service W) (Circumstances W))}
variable {e : Step (service W) (Circumstances W)}

/-- A commit that succeeds makes of each row what the writes in its transaction make of it. -/
theorem Recorded.rowChange {c : Crowd (service W) Shared (Circumstances W) ρ}
    (hc : Recorded home rows c) {o : Circumstances W} {p p' : Program (service W) ρ} {s' : Shared}
    {i n : Nat}
    (hn : p.next? (setting home) o c.state =
      some (.call (.database i (.commit n)) (.ok ()), p', s'))
    (key : RowKey) :
    RowChange (writes n key (events home (home i) (deedsOf c.log)))
      ((c.state.databases (home i)).rows.get? key)
      ((s'.databases (home i)).rows.get? key) := by
  obtain ⟨hstep, hnew⟩ := next?_database hn
  rw [hnew]
  refine (Database.did_step _ (.commit n)).rowChange ?_ fun t ht =>
    (hc.invariant (home i)).tracks n t key ht
  rw [hstep]
  rfl

/-- When a transaction is begun, nothing was written in it before. -/
theorem writes_before_begin
    (hlog : ((Crowd.start (.opening rows interval) tasks).play (setting home) ms).log =
      later ++ e :: earlier)
    (he : e.deed = .call (.database h.store (.begin h.context)) (.ok h.tx)) (key : RowKey) :
    writes h.tx key (events home (home h.store) (deedsOf earlier)) = [] := by
  obtain ⟨ms₁, ms₂, p, p', s', -, rfl, -, hn⟩ := Crowd.exists_step_of_log hlog
  have hinv := (recorded_play home rows interval tasks ms₁).invariant (home h.store)
  rw [he] at hn
  have htx := Except.ok.inj (Program.answer_of_next? hn).1
  exact hinv.silent h.tx key (Nat.le_of_eq htx.symm)

/-- The point at which a transaction of a program is committed, and what its writes are. -/
theorem exact_of_deeds {before ws after : List (Deed (service W))}
    (hdeeds : Crowd.deeds who
      ((Crowd.start (.opening rows interval) tasks).play (setting home) ms).log =
        before ++ .call (.database h.store (.begin h.context)) (.ok h.tx) ::
          (ws ++ .call (.database h.store (.commit h.tx)) (.ok ()) :: after)) :
    Exact home who (Crowd.start (.opening rows interval) tasks) ms h ws := by
  rw [← List.cons_append, ← List.append_assoc] at hdeeds
  obtain ⟨later, e, earlier, hlog, rfl, he, hearlier, -⟩ := Crowd.exists_log_of_deeds hdeeds
  obtain ⟨ms₁, ms₂, p, p', s', rfl, rfl, ht, hn⟩ := Crowd.exists_step_of_log hlog
  have hmove := Crowd.move_step ht hn
  rw [he] at hn hmove
  obtain ⟨mid, b, old, hsplit, -, hb, -, hmid⟩ := Crowd.exists_log_of_deeds hearlier
  have hsilent := writes_before_begin hsplit hb
  refine ⟨ms₁, e.circumstances, ms₂, rfl, ?_, fun key => ?_, fun hprivate key => ?_⟩
  · rw [hmove]
    rfl
  · rw [hmove]
    exact (recorded_play home rows interval tasks ms₁).rowChange hn key
  · -- nothing was written before the begin, and what was written after it this program wrote
    have hmine : ∀ e' ∈ mid, e'.deed.tx? home = some (home h.store, h.tx) → e'.who = e.who := by
      intro e' he'
      refine hprivate e' ?_
      rw [hsplit]
      exact List.mem_append_left _ he'
    have hbegin : events home (home h.store) (deedsOf (mid ++ b :: old)) =
        events home (home h.store) (deedsOf mid) ++
          ⟨.begin h.context, .ok h.tx⟩ :: events home (home h.store) (deedsOf old) := by
      simp [events, deedsOf, hb, Deed.event?]
    show writes h.tx key (events home (home h.store) (deedsOf _)) = _
    rw [hsplit, hbegin, writes_append, writes, hsilent key, writes_of_private hmine key, hmid]
    rfl

end Point

/-! ### The run -/

theorem begun_once_deeds {rows : Nat → Rows} {c : Crowd (service W) Shared (Circumstances W) ρ}
    (hc : Recorded home rows c) (who : Nat) :
    ((Crowd.deeds who c.log).filterMap (Deed.begun? home)).Nodup := by
  rw [Crowd.deeds, List.filterMap_reverse, (List.reverse_perm _).nodup_iff, List.filterMap_map]
  exact hc.begun_nodup.sublist (List.filter_sublist.filterMap _)

/-- The transaction of an attempt of a run that has ended is committed, at any later point, exactly
if the attempt succeeded. -/
theorem committed_iff {rows : Nat → Rows} {tasks : Nat → Option (Program (service W) (Except ε α))}
    {c : Crowd (service W) Shared (Circumstances W) (Except ε α)} (hc : Orderly home rows tasks c)
    {who : Nat} (hdone : c.tasks who = some (.done r))
    (hran : Ran R spec work n ts (Crowd.deeds who c.log) r)
    (hwork : ∀ h scope, EndsOwn home [] (work h scope)) {k : Handle} {ws : List (Deed (service W))}
    {v : Except ε α} {reply : Except StoreError Unit} (ht : .worked k ws v reply ∈ ts)
    (ms : List (Move (Circumstances W))) :
    Provenance.CommittedIn home (c.play (setting home) ms).log (k.transaction home) ↔
      ∃ a, (Attempt.worked k ws v reply).result = .ok a := by
  have hsame := Crowd.deeds_play_of_done (E := setting home) hdone ms
  obtain ⟨i, before, after, hmade, hds, -, -⟩ := hran.split hwork ht
  have hmem : ∀ d ∈ (Attempt.worked k ws v reply).deeds R.store,
      ∃ e ∈ (c.play (setting home) ms).log, e.who = who ∧ e.deed = d := by
    intro d hd
    rw [← Crowd.mem_deeds, hsame, hds]
    exact List.mem_append_right _ (List.mem_append_left _ hd)
  constructor
  · rintro ⟨e, he, hcommit⟩
    have hends := Deed.ends?_of_commit? hcommit
    -- it is ended by the program that began it, so among its deeds
    obtain ⟨b, hb, hbwho, hbdeed⟩ := hmem _ List.mem_cons_self
    have hbegun : b.deed.begun? home = some (k.transaction home) := by
      rw [hbdeed]
      cases hmade
      rfl
    have hwho : e.who = who := by rw [(hc.play ms).ended_by_beginner hb he hbegun hends, hbwho]
    have hdeed : e.deed ∈ Crowd.deeds who c.log := by
      rw [← hsame]
      exact Crowd.mem_deeds.2 ⟨e, he, hwho, rfl⟩
    rw [hran.only_ending hwork (begun_once_deeds hc.recorded who) ht hdeed hends] at hcommit
    exact (Attempt.commit?_ending home k ws v reply).1 hcommit
  · intro hok
    obtain ⟨e, he, -, hdeed⟩ := hmem (Attempt.ending k reply v)
      (List.mem_cons_of_mem _ (List.mem_append_right _ List.mem_cons_self))
    exact ⟨e, he, by rw [hdeed]; exact (Attempt.commit?_ending home k ws v reply).2 hok⟩

/-- From a point of a schedule on, the transaction of an attempt is committed sooner or later. -/
def Attempt.Commits (home : Nat → Nat) (c : Crowd (service W) Shared (Circumstances W) ρ)
    (t : Attempt W ε α) : Prop :=
  ∃ ms, ∃ h ∈ t.handle?, Provenance.CommittedIn home (c.play (setting home) ms).log
    (h.transaction home)

/-- An attempt that failed never commits. -/
theorem not_commits_of_error {rows : Nat → Rows}
    {tasks : Nat → Option (Program (service W) (Except ε α))}
    {c : Crowd (service W) Shared (Circumstances W) (Except ε α)} (hc : Orderly home rows tasks c)
    {who : Nat} (hdone : c.tasks who = some (.done r))
    (hran : Ran R spec work n ts (Crowd.deeds who c.log) r)
    (hwork : ∀ h scope, EndsOwn home [] (work h scope)) (ht : t ∈ ts) {e : ε}
    (he : t.result = .error e) :
    ¬ t.Commits home c := by
  rintro ⟨ms, h, hh, hcommitted⟩
  cases t with
  | refused context x => cases hh
  | worked k ws v reply =>
    cases hh
    obtain ⟨a, ha⟩ := (committed_iff hc hdone hran hwork ht ms).1 hcommitted
    rw [he] at ha
    cases ha

/-- When a run is over, the handles of its attempts are of no use any more. -/
theorem refuses_of_attempt {rows : Nat → Rows}
    {tasks : Nat → Option (Program (service W) (Except ε α))}
    {c : Crowd (service W) Shared (Circumstances W) (Except ε α)} (hc : Orderly home rows tasks c)
    {who : Nat} (hdone : c.tasks who = some (.done r))
    (hran : Ran R spec work n ts (Crowd.deeds who c.log) r)
    (hwork : ∀ h scope, EndsOwn home [] (work h scope)) (ht : t ∈ ts) {h : Handle}
    (hh : h ∈ t.handle?) (ms : List (Move (Circumstances W))) :
    Refuses (W := W) home (c.play (setting home) ms).state (h.transaction home) := by
  cases t with
  | refused context x => cases hh
  | worked k ws v reply =>
    cases hh
    obtain ⟨i, before, after, -, hds, -⟩ := hran.split hwork ht
    have hmem : Attempt.ending h reply v ∈ Crowd.deeds who (c.play (setting home) ms).log := by
      rw [Crowd.deeds_play_of_done hdone, hds]
      exact List.mem_append_right _ (List.mem_append_left _
        (List.mem_cons_of_mem _ (List.mem_append_right _ List.mem_cons_self)))
    obtain ⟨e, he, -, hdeed⟩ := Crowd.mem_deeds.1 hmem
    exact refuses_of_closed ((hc.play ms).closed_of_end he
      (hdeed ▸ Attempt.ends?_ending home h reply v))

/-- An attempt that succeeded has committed exactly the writes made through its handle. -/
theorem exact_of_attempt {rows : Nat → Rows}
    {tasks : Nat → Option (Program (service W) (Except ε α))} {interval who : Nat}
    {ms : List (Move (Circumstances W))}
    (hran : Ran R spec work n ts (Crowd.deeds who
      ((Crowd.start (.opening rows interval) tasks).play (setting home) ms).log) r)
    (hwork : ∀ h scope, EndsOwn home [] (work h scope)) {h : Handle} {ws : List (Deed (service W))}
    {v : α} (ht : .worked h ws (.ok v) (.ok ()) ∈ ts) :
    Exact home who (Crowd.start (.opening rows interval) tasks) ms h ws := by
  obtain ⟨i, before, after, hmade, hds, -⟩ := hran.split hwork ht
  cases hmade
  simp only [Attempt.deeds, Attempt.ending, List.cons_append, List.append_assoc,
    List.nil_append] at hds
  exact exact_of_deeds hds

/-- **All or nothing.** Take a run that joins no other one, of any work that ends only transactions
that it began, among any other such programs, on databases with any rows, and any schedule. At every
point, a transaction that the program of the run has ended fails and changes nothing. When the run
has ended, its deeds are a series of attempts, and the handles of all of them are of no use any
more. If it returned a value, that is the value of its last attempt, whose transaction was
committed, with exactly the writes made through its handle, and no other attempt ever commits. If it
failed, none ever does. -/
theorem run_all_or_nothing (home : Nat → Nat) (rows : Nat → Rows) (interval : Nat)
    (tasks : Nat → Option (Program (service W) (Except ε α))) (hR : Discreet R) (spec : RunSpec)
    (hwork : ∀ h scope, EndsOwn home [] (work h scope)) (scope : Scope)
    (halone : Provenance.joins R scope = false) (who : Nat)
    (hwho : tasks who = some (R.run spec work scope))
    (hothers : ∀ i p, i ≠ who → tasks i = some p → EndsOwn home [] p)
    (ms : List (Move (Circumstances W))) :
    let start := Crowd.start (.opening rows interval) tasks
    let c := start.play (setting home) ms
    (∀ d ∈ Crowd.deeds who c.log, ∀ t, d.ends? home = some t → Refuses (W := W) home c.state t) ∧
    ∀ r, c.tasks who = some (.done r) →
      ∃ attempts, Ran R spec work 1 attempts (Crowd.deeds who c.log) r ∧
        (∀ t ∈ attempts, ∀ h ∈ t.handle?, ∀ ms',
          Refuses (W := W) home (c.play (setting home) ms').state (h.transaction home)) ∧
        (∀ v, r = .ok v → ∃ earlier h ws, attempts = earlier ++ [.worked h ws (.ok v) (.ok ())] ∧
          Provenance.CommittedIn home c.log (h.transaction home) ∧ Exact home who start ms h ws ∧
          ∀ t ∈ earlier, ¬ t.Commits home c) ∧
        ∀ e, r = .error e → ∀ t ∈ attempts, ¬ t.Commits home c := by
  intro start c
  have hc : Orderly home rows tasks c :=
      .of_task hwho (EndsOwn.run hR hwork scope) hothers interval ms
  refine ⟨fun d hd t ht => ?_, fun r hdone => ?_⟩
  · obtain ⟨e, he, -, rfl⟩ := Crowd.mem_deeds.1 hd
    exact refuses_of_closed (hc.closed_of_end he ht)
  obtain ⟨q, htakes, hq⟩ := hc.takes hwho
  obtain rfl := hq _ hdone
  obtain ⟨attempts, hran⟩ := Runs.ran_of_takes hR halone htakes
  refine ⟨attempts, hran, fun t ht h hh ms' => refuses_of_attempt hc hdone hran hwork ht hh ms',
    fun v hv => ?_, fun e he t ht => ?_⟩
  · subst hv
    obtain ⟨earlier, h, ws, hattempts, hearlier⟩ := hran.result_ok
    have hlast : Attempt.worked h ws (.ok v) (.ok ()) ∈ attempts := by
      rw [hattempts]
      exact List.mem_append_right _ List.mem_cons_self
    refine ⟨earlier, h, ws, hattempts, ?_, exact_of_attempt hran hwork hlast, fun t ht => ?_⟩
    · exact (committed_iff hc hdone hran hwork hlast []).2 ⟨v, rfl⟩
    · obtain ⟨e, he⟩ := hearlier t ht
      exact not_commits_of_error hc hdone hran hwork (hattempts ▸ List.mem_append_left _ ht) he
  · subst he
    obtain ⟨e, he⟩ := hran.result_error ht
    exact not_commits_of_error hc hdone hran hwork ht he

/-- Work that patches a row. -/
def patchRow (h : Handle) : Action Nothing (Except Failure UInt8) := fun scope =>
  (Provenance.oneStore.update h "t" "a" [] none scope).bind fun _ => .done (.ok 7)

/-- Two runs of it. -/
def patchers (i : Nat) : Option (Program (service Nothing) (Except Failure UInt8)) :=
  if i < 2 then some (Provenance.oneStore.run .standard patchRow none) else none

/-- The run that begins first loses its first attempt to the other one, and commits its second. -/
theorem run_all_or_nothing_contended :
    let start := Crowd.start (.opening (fun _ => Database.twoRows) 4) patchers
    let ms := atOnce [0, 0, 1, 1, 1, 0, 0, 0, 0]
    let c := start.play (setting id) ms
    c.tasks 0 = some (.done (.ok 7)) ∧ (c.state.databases 0).rollbacks = 1 ∧
      ∃ earlier h ws,
        Ran Provenance.oneStore .standard patchRow 1
          (earlier ++ [.worked h ws (.ok 7) (.ok ())]) (Crowd.deeds 0 c.log) (.ok 7) ∧
        Provenance.CommittedIn id c.log (h.transaction id) ∧ Exact id 0 start ms h ws ∧
        ∀ t ∈ earlier, ¬ t.Commits id c := by
  have hR : Discreet Provenance.oneStore := ⟨fun _ _ => rfl, fun _ _ _ => trivial⟩
  have hwork : ∀ h scope, EndsOwn id [] (patchRow h scope) :=
    fun h _ => EndsOwn.bind (endsOwn_ask rfl) fun _ => trivial
  have hothers : ∀ i p, i ≠ 0 → patchers i = some p → EndsOwn id [] p := by
    intro i p _ hp
    unfold patchers at hp
    split at hp
    · cases hp
      exact EndsOwn.run hR hwork none
    · cases hp
  have hrun := run_all_or_nothing id (fun _ => Database.twoRows) 4 patchers hR .standard hwork
    none rfl 0 rfl hothers (atOnce [0, 0, 1, 1, 1, 0, 0, 0, 0])
  dsimp only at hrun ⊢
  have hdone := Crowd.tasks_of_value?
    (c := (Crowd.start (.opening (fun _ => Database.twoRows) 4) patchers).play
      (setting id) (atOnce [0, 0, 1, 1, 1, 0, 0, 0, 0])) (i := 0) (a := 7) (by decide +kernel)
  obtain ⟨attempts, hran, -, hok, -⟩ := hrun.2 _ hdone
  obtain ⟨earlier, h, ws, rfl, hrest⟩ := hok 7 rfl
  exact ⟨hdone, by decide +kernel, earlier, h, ws, hran, hrest⟩

end GuardedWrites

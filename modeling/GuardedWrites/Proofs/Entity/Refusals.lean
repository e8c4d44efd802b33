import GuardedWrites.Proofs.Database.Views
import GuardedWrites.Proofs.Entity.Duplicates
import GuardedWrites.Proofs.Entity.Versions

/-!
# What a version conflict reports

An update that expects a version is refused by one request, and what it reports is read by another
one. Between the two any other program may take its steps, and the transaction reads from no
snapshot. So a conflict reports the version that the expected one was compared with only if nobody
has touched the row in between.

* `EntityStore.Refusal` — the two deeds by which a conflict comes about;
  `EntityStore.update_refusal` finds them in a call;
* `Disturbed` — some steps, one of which touched the row;
* `watched_play` — what a transaction sees after a schedule: the same, or something later and then
  it was disturbed;
* `EntityStore.conflict_reports_later_version` — what the two versions of a conflict are, and when
  they may be the same.
-/

namespace GuardedWrites

open Shared
open Database (Touches)

variable {W : Service} {α : Type} [Entity α]

/-! ### The deeds of a refused update -/

namespace EntityStore

/-- An update in a transaction that affects no row. -/
abbrev refused (store n : Nat) (key : RowKey) (patch : Fields) (expected : UInt64) :
    Deed (service W) :=
  .call (.database store (.update n key.1 key.2 patch (some expected))) (.ok (0 : Nat))

/-- A read in a transaction that finds a row. -/
abbrev found (store n : Nat) (key : RowKey) (row : Row) : Deed (service W) :=
  .call (.database store (.fetch n key.1 key.2)) (.ok (some row))

/-- Deeds by which a conflict comes about: an update affects no row, and the read after it finds
one. -/
def Refusal (store : Nat) (key : RowKey) (patch : Fields) (expected actual : UInt64)
    (ds : List (Deed (service W))) : Prop :=
  ∃ n row before after, row.effectiveVersion = actual ∧
    ds = before ++ refused store n key patch expected :: found store n key row :: after

variable {R : Runner (Action W)} {id : String} {patch : Fields} {expected actual : UInt64}
variable {wanted : Option UInt64}
variable {store : Nat} {key : RowKey} {ds : List (Deed (service W))}

theorem Refusal.append (h : Refusal store key patch expected actual ds)
    (before after : List (Deed (service W))) :
    Refusal store key patch expected actual (before ++ ds ++ after) := by
  obtain ⟨n, row, before', after', hrow, rfl⟩ := h
  exact ⟨n, row, before ++ before', after' ++ after, hrow, by simp⟩

theorem decode_ne_conflict (row : Row) :
    Entity.decode (α := α) row ≠ .error (.versionConflict expected actual) := by
  unfold Entity.decode
  split <;> simp

theorem patch_ne_conflict (changes : Entity.Changes α) :
    Entity.patch changes ≠ .error (.versionConflict expected actual) := by
  unfold Entity.patch Entity.patchOfJson
  cases Entity.changesToJson changes with
  | obj fs =>
    simp only [Entity.members, bind, Except.bind]
    split
    · simp
    · split <;> simp
  | _ => simp [Entity.members, bind, Except.bind]

/-- An update is judged a conflict only if it affected no row, expected a version, and found a
row. -/
theorem judgeUpdate_eq_conflict {affected : Nat} {current : Option Row}
    (h : judgeUpdate α id affected current wanted = .error (.versionConflict expected actual)) :
    affected = 0 ∧ wanted = some expected ∧ ∃ row, current = some row ∧
    row.effectiveVersion = actual := by
  cases affected with
  | succ n =>
    cases current with
    | none => cases h
    | some row => exact absurd h (decode_ne_conflict row)
  | zero =>
    cases current with
    | none => cases h
    | some row =>
      cases wanted with
      | none => cases h
      | some e =>
        cases h
        exact ⟨rfl, rfl, row, rfl, rfl⟩

/-- The work of an update that ends in a conflict. -/
theorem refusal_of_work (hR : Discreet R) {h : Handle} {scope : Scope}
    (hds : (updateWork α R id patch wanted h scope).Takes ds
      (.done (.error (.versionConflict expected actual)))) :
    wanted = some expected ∧ Refusal R.store (Entity.table α, id) patch expected actual ds := by
  rw [updateWork_eq hR] at hds
  obtain ⟨x, rest, rfl, hfetch⟩ := hds.of_call
  rcases x with e | affected
  · obtain ⟨-, hr⟩ := hfetch.of_done
    cases hr
  obtain ⟨y, rest, rfl, hend⟩ := hfetch.of_call
  obtain ⟨rfl, hr⟩ := hend.of_done
  rcases y with e | current
  · cases hr
  obtain ⟨rfl, rfl, row, rfl, hrow⟩ := judgeUpdate_eq_conflict (Program.done.inj hr).symm
  exact ⟨rfl, h.tx, row, [], [], hrow, rfl⟩

/-- An attempt that ends in a conflict. -/
theorem refusal_of_made {c : TransactionContext} {t : Attempt W Failure (Versioned α)}
    (hR : Discreet R) (ht : t.Made R.store (updateWork α R id patch wanted) c)
    (hr : t.result = .error (.versionConflict expected actual)) :
    wanted = some expected ∧
      Refusal R.store (Entity.table α, id) patch expected actual (t.deeds R.store) := by
  cases ht with
  | refused e => cases hr
  | worked tx ds result reply hwork =>
    rcases result with e | a
    · obtain rfl : e = .versionConflict expected actual := Except.error.inj hr
      obtain ⟨hwanted, hrefusal⟩ := refusal_of_work hR hwork
      exact ⟨hwanted, hrefusal.append [_] [_]⟩
    · cases reply <;> cases hr

/-- A run that ends in a conflict: so does its last attempt. -/
theorem refusal_of_ran (hR : Discreet R) {spec : RunSpec} {n : Nat}
    {ts : List (Attempt W Failure (Versioned α))} {r : Except Failure (Versioned α)}
    (h : Ran R spec (updateWork α R id patch wanted) n ts ds r)
    (hr : r = .error (.versionConflict expected actual)) :
    wanted = some expected ∧ Refusal R.store (Entity.table α, id) patch expected actual ds := by
  induction h with
  | @last n t before after ht hbefore hafter =>
    obtain ⟨hwanted, hrefusal⟩ := refusal_of_made hR ht hr
    exact ⟨hwanted, hrefusal.append before after⟩
  | @more n t ts before between ds e r ht _ _ _ _ _ ih =>
    obtain ⟨hwanted, hrefusal⟩ := ih hr
    have hlater := hrefusal.append (before ++ t.deeds R.store ++ between) []
    rw [List.append_nil] at hlater
    exact ⟨hwanted, hlater⟩

/-- **A call** that ends in a conflict, whether it joins a transaction or not. -/
theorem update_refusal (hR : Discreet R) {changes : Entity.Changes α} {scope : Scope}
    (hds : (update R id changes wanted scope).Takes ds
      (.done (.error (.versionConflict expected actual)))) :
    wanted = some expected ∧ ∃ patch,
      Refusal R.store (Entity.table α, id) patch expected actual ds := by
  unfold update at hds
  cases hpatch : Entity.patch changes with
  | error e =>
    rw [hpatch] at hds
    obtain ⟨-, hr⟩ := Program.Takes.of_done hds
    obtain rfl : .versionConflict expected actual = e := Except.error.inj (Program.done.inj hr)
    exact absurd hpatch (patch_ne_conflict changes)
  | ok patch =>
    rw [hpatch] at hds
    change (R.run (spec α "update" .serializable true)
      (updateWork α R id patch wanted) scope).Takes ds _ at hds
    cases hscope : scope.filter fun h : Handle => h.store == R.store with
    | some handle =>
      rw [Provenance.run_of_enclosed _ hscope] at hds
      exact (refusal_of_work hR hds).imp_right fun h => ⟨patch, h⟩
    | none =>
      have halone : Provenance.joins R scope = false := by simp [Provenance.joins, hscope]
      obtain ⟨ts, hran⟩ := Runs.ran_of_takes hR halone hds
      exact (refusal_of_ran hR hran rfl).imp_right fun h => ⟨patch, h⟩

end EntityStore

/-! ### What happens in between -/

section Between

variable {β : Type} {home : Nat → Nat} {rows : Nat → Rows} {d n : Nat} {key : RowKey}
variable {c : Crowd (service W) Shared (Circumstances W) β}
variable {log between : List (Step (service W) (Circumstances W))}

/-- Steps after a log, the latest first, among which one touched the row of a transaction. -/
def Disturbed (home : Nat → Nat) (d n : Nat) (key : RowKey)
    (log between : List (Step (service W) (Circumstances W))) : Prop :=
  ∃ later s earlier, between = later ++ s :: earlier ∧ ∃ e, s.deed.event? home d = some e ∧
    Touches n key e (events home d (deedsOf (earlier ++ log)))

theorem Disturbed.cons (h : Disturbed home d n key log between)
    (s : Step (service W) (Circumstances W)) :
    Disturbed home d n key log (s :: between) := by
  obtain ⟨later, s', earlier, rfl, hs'⟩ := h
  exact ⟨s :: later, s', earlier, rfl, hs'⟩

/-- What a transaction that is still open sees of a row at a later point: the same as before, or
something that the row has become since, and then somebody has touched it. -/
def Watched (home : Nat → Nat) (d n : Nat) (key : RowKey)
    (c c' : Crowd (service W) Shared (Circumstances W) β) : Prop :=
  ∃ between, c'.log = between ++ c.log ∧ ((c'.state.databases d).opened.get? n ≠ none →
    (c'.state.databases d).view? n key = (c.state.databases d).view? n key ∨
    Disturbed home d n key c.log between ∧
      Row.Forward ((c.state.databases d).view? n key) ((c'.state.databases d).view? n key))

/-- One step. -/
theorem Watched.advance {c' : Crowd (service W) Shared (Circumstances W) β} {who : Nat}
    {o : Circumstances W} {p p' : Program (service W) β} {x : Deed (service W)} {s' : Shared}
    (h : Watched home d n key c c') (hc : Recorded home rows c')
    (hbegun : n < (c'.state.databases d).begun)
    (hn : p.next? (setting home) o c'.state = some (x, p', s')) :
    n < (s'.databases d).begun ∧ Watched home d n key c (c'.advance who o x p' s') := by
  obtain ⟨between, hlog, hview⟩ := h
  have hlater : (c'.advance who o x p' s').log = ⟨who, o, x⟩ :: between ++ c.log := by
    rw [List.cons_append, ← hlog]
    rfl
  rcases database_of_next? hn d with ⟨-, hs'⟩ | ⟨r, hx, hs'⟩
  · refine ⟨hs' ▸ hbegun, _, hlater, fun hopen => ?_⟩
    show (s'.databases d).view? n key = _ ∨ _ ∧ Row.Forward _ ((s'.databases d).view? n key)
    rw [hs']
    have hopen' : (c'.state.databases d).opened.get? n ≠ none := fun h => hopen (hs' ▸ h)
    exact (hview hopen').imp_right fun hd => ⟨hd.1.cons _, hd.2⟩
  · have hlife := Database.life_step (c'.state.databases d) r
    refine ⟨hs' ▸ Nat.lt_of_lt_of_le hbegun hlife.begun_le, _, hlater, fun hopen => ?_⟩
    show (s'.databases d).view? n key = _ ∨ _ ∧ Row.Forward _ ((s'.databases d).view? n key)
    rw [hs']
    have hopen' : ((c'.state.databases d).step r).2.opened.get? n ≠ none := fun h => hopen (hs' ▸ h)
    -- what is open was open before, for what is closed stays closed
    have hbefore : (c'.state.databases d).opened.get? n ≠ none := fun hnone =>
      hopen' (hlife.closed ⟨hbegun, hnone⟩).2
    have hdisturbed :
        Touches n key ⟨r, ((c'.state.databases d).step r).1⟩ (events home d (deedsOf c'.log)) →
        Disturbed home d n key c.log (⟨who, o, x⟩ :: between) :=
      fun htouch => ⟨[], ⟨who, o, x⟩, between, rfl, _, hx, hlog ▸ htouch⟩
    rcases Database.view?_step (hc.invariant d) hlife hbegun hopen' with hsame | ⟨htouch, hforward⟩
    · rw [hsame]
      exact (hview hbefore).imp_right fun hd => ⟨hd.1.cons _, hd.2⟩
    · refine .inr ⟨hdisturbed htouch, ?_⟩
      rcases hview hbefore with hsame | ⟨-, hforward'⟩
      · exact hsame ▸ hforward
      · exact hforward'.trans hforward

/-- **Any schedule.** -/
theorem watched_play (key : RowKey) (hc : Recorded home rows c)
    (hopen : (c.state.databases d).opened.get? n ≠ none) (ms : List (Move (Circumstances W))) :
    Watched home d n key c (c.play (setting home) ms) := by
  obtain ⟨t, ht⟩ := Option.ne_none_iff_exists'.1 hopen
  have hbegun : n < (c.state.databases d).begun := (hc.invariant d).numbered n t ht
  have hwatched := Crowd.play_invariant
    (I := fun c' => Recorded home rows c' ∧ n < (c'.state.databases d).begun ∧
      Watched home d n key c c')
    (fun c' who o p x p' s' h _ hn => ⟨h.1.advance hn, h.2.2.advance h.1 h.2.1 hn⟩) (fun _ _ h => h)
    ⟨hc, hbegun, [], rfl, fun _ => .inl rfl⟩ ms
  exact hwatched.2.2

end Between

/-! ### What is reported -/

namespace EntityStore

variable {R : Runner (Action W)} {home : Nat → Nat} {rows : Nat → Rows} {store n : Nat}
variable {key : RowKey} {i : Nat}

/-- An update that affects no row, then any schedule, then a read that finds a row: what the
transaction saw at the two points. -/
theorem versions_of_refusal {β : Type} {c c₂ : Crowd (service W) Shared (Circumstances W) β}
    {o o' : Circumstances W} {p p' q q' : Program (service W) β} {s' t' : Shared} {patch : Fields}
    {row : Row} {e : UInt64} {ms : List (Move (Circumstances W))} (hc : Recorded home rows c)
    (hrefused : p.next? (setting home) o c.state = some (refused store n key patch e, p', s'))
    (hlater : c₂ = (c.advance i o (refused store n key patch e) p' s').play (setting home) ms)
    (hfound : q.next? (setting home) o' c₂.state = some (found store n key row, q', t')) :
    ∃ between, c₂.log = between ++ ⟨i, o, refused store n key patch e⟩ :: c.log ∧
      ((c.state.databases (home store)).view? n key).map Row.effectiveVersion ≠ some e ∧
      (c₂.state.databases (home store)).view? n key = some row ∧
      (∀ old, (c.state.databases (home store)).view? n key = some old → old.Precedes row) ∧
      (row.effectiveVersion = e →
        Disturbed home (home store) n key (⟨i, o, refused store n key patch e⟩ :: c.log)
          between) := by
  obtain ⟨hzero, hs'⟩ := next?_database hrefused
  obtain ⟨hother, hopen, hkept⟩ := Database.view?_of_unaffected key hzero
  obtain ⟨hopen₂, hview₂⟩ := Database.view?_of_fetch (next?_database hfound).1
  rw [← hs'] at hopen hkept
  obtain ⟨between, hlog, hseen⟩ := watched_play key (hc.advance hrefused) hopen ms
  rw [← hlater] at hlog hseen
  -- the update changed nothing, so what the read finds is to be compared with what the update saw
  have hseen : some row = (c.state.databases (home store)).view? n key ∨
      Disturbed home (home store) n key (⟨i, o, refused store n key patch e⟩ :: c.log) between ∧
        Row.Forward ((c.state.databases (home store)).view? n key) (some row) := by
    rw [← hkept, ← hview₂]
    exact hseen hopen₂
  refine ⟨between, hlog, hother, hview₂, fun old hold => ?_, fun hsame => ?_⟩
  · rcases hseen with hstays | ⟨-, hforward⟩
    · cases hstays.trans hold
      exact .refl _
    · obtain ⟨row', hrow', hprecedes⟩ := hforward old hold
      cases hrow'
      exact hprecedes
  · rcases hseen with hstays | ⟨hdisturbed, -⟩
    · exact absurd (by rw [← hstays, Option.map_some, hsame]) hother
    · exact hdisturbed

/-- **What a version conflict reports.** Take a call of an update with an expected version, inside
any transaction or none, among any other programs on databases with any rows, and any schedule. If
the call returns a conflict, the expected version in it is the one that was passed. At one point of
the schedule the update of the call affected no row, as its transaction did not see the expected
version there; at a later point its read found a row, and the actual version is that of this row. If
there was a row at the first point, it counted no more, so its version was no higher as long as the
count has 64 bits. In between the call did nothing, and if the two versions of the conflict are the
same, somebody else has touched the row: another transaction that had written it was committed, or
it was written in the transaction of the call. -/
theorem conflict_reports_later_version (home : Nat → Nat) (rows : Nat → Rows) (interval : Nat)
    {tasks : Nat → Option (Program (service W) (Except Failure (Versioned α)))} (hR : Discreet R)
    (id : String) (changes : Entity.Changes α) (e : UInt64) (scope : Scope)
    (hi : tasks i = some ((update R id changes (some e) : Action W _) scope))
    (ms : List (Move (Circumstances W))) {expected actual : UInt64}
    (hreturned : ((Crowd.start (.opening rows interval) tasks).play (setting home) ms).tasks i =
      some (.done (.error (.versionConflict expected actual)))) :
    expected = e ∧ ∃ ms₁ o ms₂ o' ms₃ n patch row between,
      ms = (ms₁ ++ .step i o :: ms₂) ++ .step i o' :: ms₃ ∧
      let key := (Entity.table α, id)
      let c₁ := (Crowd.start (.opening rows interval) tasks).play (setting home) ms₁
      let c₂ := (Crowd.start (.opening rows interval) tasks).play (setting home)
        (ms₁ ++ .step i o :: ms₂)
      c₂.log = between ++ ⟨i, o, refused R.store n key patch e⟩ :: c₁.log ∧
      (∀ s ∈ between, s.who ≠ i) ∧
      (c₂.move (setting home) (.step i o')).log = ⟨i, o', found R.store n key row⟩ :: c₂.log ∧
      ((c₁.state.databases (home R.store)).view? n key).map Row.effectiveVersion ≠ some e ∧
      (c₂.state.databases (home R.store)).view? n key = some row ∧ row.effectiveVersion = actual ∧
      (∀ old, (c₁.state.databases (home R.store)).view? n key = some old →
        old.effectiveCount ≤ row.effectiveCount ∧
        (row.effectiveCount < UInt64.size → old.effectiveVersion ≤ actual)) ∧
      (actual = e →
        Disturbed home (home R.store) n key (⟨i, o, refused R.store n key patch e⟩ :: c₁.log)
          between) := by
  rcases Crowd.takes_play (E := setting home)
    (.opening rows interval) tasks ms i with ⟨hnone, -⟩ | ⟨p, q, hp, htakes, hq⟩
  · rw [hi] at hnone
    cases hnone
  obtain rfl := Option.some.inj (hi.symm.trans hp)
  obtain rfl := hq _ hreturned
  obtain ⟨he, patch, n, row, before, after, rfl, hdeeds⟩ := update_refusal hR htakes
  obtain rfl := Option.some.inj he
  obtain ⟨ms₁, o, ms₂, o', ms₃, between, rfl, hlog, hquiet,
    ⟨p, p', s', htp, hnp⟩, q, q', t', htq, hnq⟩ :=
    Crowd.exists_moves_of_deeds hdeeds
  refine ⟨rfl, ms₁, o, ms₂, o', ms₃, n, patch, row, between, rfl, ?_⟩
  intro key c₁ c₂
  have hlater :
      c₂ = (c₁.advance i o (refused R.store n key patch e) p' s').play (setting home) ms₂ := by
    rw [← Crowd.move_step htp hnp]
    exact Crowd.play_append _ ms₁ _
  have hfound : (c₂.move (setting home) (.step i o')).log =
      ⟨i, o', found R.store n key row⟩ :: c₂.log := by
    rw [Crowd.move_step htq hnq]
    rfl
  obtain ⟨between', hlog', hother, hview, hprecedes, hdisturbed⟩ :=
    versions_of_refusal (recorded_play home rows interval tasks ms₁) hnp hlater hnq
  obtain rfl : between' = between := List.append_cancel_right (hlog'.symm.trans hlog)
  exact ⟨hlog, hquiet, hfound, hother, hview, rfl, fun old hold =>
    ⟨(hprecedes old hold).count_le, (hprecedes old hold).version_le⟩, hdisturbed⟩

/-! ### A room that is created meanwhile -/

/-- The versions of a conflict that a program has returned. -/
def conflict? {β : Type} : Program (service W) (Except Failure β) → Option (UInt64 × UInt64)
  | .done (.error (.versionConflict expected actual)) => some (expected, actual)
  | _ => none

theorem eq_of_conflict? {β : Type} {p : Program (service W) (Except Failure β)}
    {expected actual : UInt64} (h : conflict? p = some (expected, actual)) :
    p = .done (.error (.versionConflict expected actual)) := by
  unfold conflict? at h
  split at h
  · cases h
    rfl
  · cases h

/-- A writer who expects the first version of a room, and a program that creates the room. -/
def writerAndMaker : Nat → Option (Program (service Nothing) (Except Failure (Versioned Room)))
  | 0 => some ((update usual "7" (resize 6) (some 1) : Action Nothing _) none)
  | 1 => some ((create usual (dorm "7") : Action Nothing _) none)
  | _ => none

/-- The two after a schedule. -/
abbrev afterMoves (ms : List (Move (Circumstances Nothing))) :
    Crowd (service Nothing) Shared (Circumstances Nothing) (Except Failure (Versioned Room)) :=
  (Crowd.start (.opening (fun _ => .empty) 4) writerAndMaker).play (setting id) ms

/-- The room is created between the update of the writer and its read. -/
def createdMeanwhile :
    Crowd (service Nothing) Shared (Circumstances Nothing) (Except Failure (Versioned Room)) :=
  afterMoves (atOnce [0, 0, 1, 1, 1, 0, 0])

/-- The writer is told that it expected the first version and that the first version is there. -/
theorem conflict_createdMeanwhile :
    createdMeanwhile.tasks 0 = some (.done (.error (.versionConflict 1 1))) := by
  have hversions : (createdMeanwhile.tasks 0).bind conflict? = some (1, 1) := by decide +kernel
  obtain ⟨p, hp, hconflict⟩ := Option.bind_eq_some_iff.1 hversions
  rw [hp, eq_of_conflict? hconflict]

/-- Somebody else has touched the room between the two requests of the writer. -/
theorem conflict_reports_later_version_created :
    createdMeanwhile.tasks 0 = some (.done (.error (.versionConflict 1 1))) ∧
      ∃ ms₁ o ms₂ o' ms₃ n patch row between,
        atOnce [0, 0, 1, 1, 1, 0, 0] = (ms₁ ++ .step 0 o :: ms₂) ++ .step 0 o' :: ms₃ ∧
        (afterMoves (ms₁ ++ .step 0 o :: ms₂)).log =
          between ++ ⟨0, o, refused 0 n (Entity.table Room, "7") patch 1⟩ :: (afterMoves ms₁).log ∧
        ((afterMoves (ms₁ ++ .step 0 o :: ms₂)).move (setting id) (.step 0 o')).log =
          ⟨0, o', found 0 n (Entity.table Room, "7") row⟩ ::
            (afterMoves (ms₁ ++ .step 0 o :: ms₂)).log ∧
        row.effectiveVersion = 1 ∧ (∀ s ∈ between, s.who ≠ 0) ∧
        Disturbed id 0 n (Entity.table Room, "7")
          (⟨0, o, refused 0 n (Entity.table Room, "7") patch 1⟩ ::
            (afterMoves ms₁).log) between := by
  obtain ⟨-, ms₁, o, ms₂, o', ms₃, n, patch, row, between, hms, hlog, hothers, hfound,
    -, -, hrow, -, hdisturbed⟩ :=
    conflict_reports_later_version (i := 0) id (fun _ => .empty) 4 discreet_usual "7" (resize 6)
      1 none rfl (atOnce [0, 0, 1, 1, 1, 0, 0]) conflict_createdMeanwhile
  exact ⟨conflict_createdMeanwhile, ms₁, o, ms₂, o', ms₃, n, patch, row, between, hms, hlog,
    hfound, hrow, hothers, hdisturbed rfl⟩

/-- So the two versions of a conflict need not differ. -/
theorem conflict_versions_coincide :
    ¬ ∀ (rows : Nat → Rows)
      (tasks : Nat → Option (Program (service Nothing) (Except Failure (Versioned Room))))
      (ms : List (Move (Circumstances Nothing))) (changes : RoomChanges)
      (e expected actual : UInt64),
      tasks 0 = some ((update usual "7" changes (some e) : Action Nothing _) none) →
      ((Crowd.start (.opening rows 4) tasks).play (setting id) ms).tasks 0 =
        some (.done (.error (.versionConflict expected actual))) → expected = e ∧ actual ≠ e := by
  intro hdiffer
  have h := hdiffer (fun _ => .empty) writerAndMaker (atOnce [0, 0, 1, 1, 1, 0, 0])
    (resize 6) 1 1 1 rfl conflict_createdMeanwhile
  exact h.2 rfl

end EntityStore

end GuardedWrites

import GuardedWrites.Proofs.Database.Lifetime

/-!
# Versions at a commit

A commit succeeds if the rows that the transaction wrote still count what they did when it first
read them. Versions are these counts in 64 bits, so a check of versions would also let a row pass
that has gone through all of them meanwhile. That takes as many requests as there are versions:
however requests are mixed, a row never counts more than is remembered of it and one for each
request.

* `Remembers`, `Attains` — what is remembered of a row, and what it counts or may come to count;
* `Life.remembers`, `History.Invariant.attains` — what one request makes of the two;
* `History.attains_le_remembered` — how far they can get from each other;
* `commit_checks_versions` — a commit succeeds exactly if the versions are the same.
-/

namespace GuardedWrites

open TransactionalStore (Request)

theorem Rows.map_effectiveVersion (rows : Rows) (key : RowKey) :
    (rows.get? key).map Row.effectiveVersion = (rows.count? key).map .ofNat := by
  rw [Rows.count?, Option.map_map]
  exact congrArg (Option.map · (rows.get? key)) (funext Row.effectiveVersion_eq)

/-- Two counts with one version are the same unless they are as far apart as there are versions. -/
theorem eq_of_ofNat_eq {a v : Nat} (h : UInt64.ofNat a = .ofNat v) (hle : v ≤ a)
    (hlt : a < v + UInt64.size) : a = v := by
  have hmod : a % UInt64.size = v % UInt64.size := by
    simpa using congrArg UInt64.toNat h
  have hzero : (a - v) % UInt64.size = 0 := Nat.sub_mod_eq_zero_of_mod_eq hmod
  rw [Nat.mod_eq_of_lt (by omega)] at hzero
  omega

namespace OpenTransaction

variable {t : OpenTransaction} {r : Request} {n : Nat} {k : RowKey}

/-- What work leaves written of a row: what was written before, or the row that was seen with a
patch, unless none is committed. -/
theorem writes_serve (rows : Rows) (hr : r.works? = some (n, k)) (key : RowKey) :
    (t.serve rows r).2.writes.get? key = t.writes.get? key ∨ rows.get? key = none ∨
      ∃ old patch, (t.read rows key).1 = some old ∧
        (t.serve rows r).2.writes.get? key = some (old.apply patch) := by
  have hold := t.writes_read rows k
  have hfst := t.fst_read rows k
  cases r with
  | fetch m table id =>
    cases hr
    exact .inl (congrArg (·.get? key) hold)
  | insert m table row =>
    cases hr
    simp only [serve, OpenTransaction.insert]
    cases hread : t.read rows (table, row.id) with
    | mk current t' =>
      rw [hread] at hold hfst
      cases current with
      | some old => exact .inl (congrArg (·.get? key) hold)
      | none =>
        by_cases hkey : (table, row.id) = key
        · subst hkey
          exact .inr (.inl (Option.or_eq_none_iff.1 hfst.symm).2)
        · simp only [Table.get?_insert, if_neg hkey]
          exact .inl (congrArg (·.get? key) hold)
  | update m table id patch expected =>
    cases hr
    simp only [serve, OpenTransaction.update]
    cases hread : t.read rows (table, id) with
    | mk current t' =>
      rw [hread] at hold
      cases current with
      | none => exact .inl (congrArg (·.get? key) hold)
      | some old =>
        dsimp only
        split
        · exact .inl (congrArg (·.get? key) hold)
        · by_cases hkey : (table, id) = key
          · subst hkey
            exact .inr (.inr ⟨old, patch, by rw [hread], by simp [Table.get?_insert]⟩)
          · simp only [Table.get?_insert, if_neg hkey]
            exact .inl (congrArg (·.get? key) hold)
  | begin c => cases hr
  | commit m => cases hr
  | rollback m => cases hr

end OpenTransaction

namespace Database

variable {rows : Rows} {s : History} {db db' : Database} {e : Event} {key : RowKey} {v c : Nat}

/-- An open transaction remembers what a row counted. -/
def Remembers (db : Database) (key : RowKey) (v : Nat) : Prop :=
  ∃ n t, db.opened.get? n = some t ∧ t.base.get? key = some (some v)

/-- What a row counts, as it is committed or as an open transaction has written it over what is
committed. -/
inductive Attains (db : Database) (key : RowKey) : Nat → Prop where
  | committed {cur : Row} (hcur : db.rows.get? key = some cur) :
    Attains db key cur.effectiveCount
  | written {n : Nat} {t : OpenTransaction} {row : Row} (ht : db.opened.get? n = some t)
    (hbase : t.base.get? key = some (db.rows.count? key))
    (hrow : t.writes.get? key = some row) : Attains db key row.effectiveCount

theorem length_writes_le (n : Nat) (key : RowKey) (log : List Event) :
    (writes n key log).length ≤ log.length := by
  induction log with
  | nil => exact Nat.le_refl 0
  | cons e earlier ih =>
    have hone : (e.write? n key).toList.length ≤ 1 := by
      cases e.write? n key <;> simp
    rw [writes, List.length_append, List.length_cons]
    omega

/-- A row of which something is remembered is there, and counts no less. -/
theorem History.Invariant.seen (h : Invariant rows s) (hv : Remembers s.db key v) :
    ∃ cur, s.db.rows.get? key = some cur ∧ v ≤ cur.effectiveCount := by
  obtain ⟨n, t, ht, hbase⟩ := hv
  exact (h.tracks n t key ht).seen v hbase

/-- A row counts no more than is committed of it, and one for each event. -/
theorem History.Invariant.attains_le_committed (h : Invariant rows s) {cur : Row}
    (hcur : s.db.rows.get? key = some cur) (hc : Attains s.db key c) :
    c ≤ cur.effectiveCount + s.log.length := by
  cases hc with
  | committed hcur' =>
    rw [hcur, Option.some.injEq] at hcur'
    rw [hcur']
    exact Nat.le_add_right _ _
  | @written n t row ht hbase hrow =>
    obtain ⟨start, hstart, hcase⟩ := (h.tracks n t key ht).written row hrow
    rw [hbase] at hcase
    rcases hcase with ⟨-, hnone⟩ | ⟨-, -, seen, cur', -, -, hcur', hprecedes⟩
    · simp [Rows.count?, hcur] at hnone
    · rw [hcur, Option.some.injEq] at hcur'
      have hstartle : start.effectiveCount ≤ cur.effectiveCount := hcur' ▸ hprecedes.count_le
      have hpatches : (patches (writes n key s.log)).length ≤ s.log.length :=
        Nat.le_trans (List.length_filterMap_le _ _) (length_writes_le n key s.log)
      rw [hstart, effectiveCount_foldl_apply]
      omega

/-- Only a read of a committed row makes a transaction remember what it counts. -/
theorem Life.remembers (h : Life db e db') (hv : Remembers db' key v) :
    Remembers db key v ∨ db.rows.count? key = some v := by
  obtain ⟨n, t, ht, hbase⟩ := hv
  cases h with
  | begun ctx =>
    simp only [begin, Table.get?_insert] at ht
    split at ht
    · cases ht
      cases hbase
    · exact .inl ⟨n, t, ht, hbase⟩
  | refused r m hr hm => exact .inl ⟨n, t, ht, hbase⟩
  | worked r m k u hr hu =>
    simp only [withOpen, Table.get?_insert] at ht
    split at ht
    · cases ht
      rw [OpenTransaction.base_serve hr, OpenTransaction.base_read] at hbase
      split at hbase
      · rename_i hk
        obtain ⟨rfl, -, -⟩ := hk
        exact .inr (Option.some.inj hbase)
      · exact .inl ⟨m, u, hu, hbase⟩
    · exact .inl ⟨n, t, ht, hbase⟩
  | committed m u hu hcurrent => exact .inl ⟨n, t, (opened_of_abandon ht).2, hbase⟩
  | failed m u hu hcurrent => exact .inl ⟨n, t, (opened_of_abandon ht).2, hbase⟩
  | rolledBack m u hu => exact .inl ⟨n, t, (opened_of_abandon ht).2, hbase⟩

/-- A commit makes a row count what it counted before or what its transaction has written. -/
theorem History.Invariant.attains_writeTo {t : OpenTransaction} {n : Nat} {cur : Row}
    (h : Invariant rows s) (ht : s.db.opened.get? n = some t)
    (hcurrent : t.isCurrent s.db.rows = true) (hcur : (t.writeTo s.db.rows).get? key = some cur) :
    Attains s.db key cur.effectiveCount := by
  rw [OpenTransaction.get?_writeTo] at hcur
  cases hw : t.writes.get? key with
  | none =>
    rw [hw, Option.none_or] at hcur
    exact .committed hcur
  | some row =>
    rw [hw, Option.some_or, Option.some.injEq] at hcur
    subst hcur
    obtain ⟨start, -, hcase⟩ := (h.tracks n t key ht).written row hw
    have hcount := (t.isCurrent_iff s.db.rows).1 hcurrent key row hw
    refine .written ht ?_ hw
    rcases hcase with ⟨-, hbase⟩ | ⟨-, -, seen, cur', hbase, -⟩
    · rw [hcount, hbase, Option.join_some]
    · rw [hcount, hbase, Option.join_some]

/-- Work adds at most one to what a row may come to count, where one is committed. -/
theorem attains_withOpen {r : Request} {n : Nat} {k : RowKey} {t : OpenTransaction}
    (hr : r.works? = some (n, k)) (ht : db.opened.get? n = some t)
    (hrow : db.rows.get? key ≠ none) (hc : Attains (db.withOpen n (t.serve db.rows r).2) key c) :
    Attains db key c ∨ ∃ c', Attains db key c' ∧ c = c' + 1 := by
  cases hc with
  | committed hcur => exact .inl (.committed hcur)
  | @written m u row hu hbase hwrites =>
    simp only [withOpen, Table.get?_insert] at hu
    split at hu
    · cases hu
      -- a row that the transaction has written before is not looked at again
      have hold : ∀ own, t.writes.get? key = some own → Attains db key own.effectiveCount := by
        intro own hown
        rw [OpenTransaction.base_serve hr, OpenTransaction.base_read, if_neg] at hbase
        · exact .written ht hbase hown
        · rintro ⟨rfl, hnone, -⟩
          rw [hown] at hnone
          cases hnone
      rcases t.writes_serve db.rows hr key with hsame | hnone | ⟨old, patch, hold', hnew⟩
      · exact .inl (hold row (hsame ▸ hwrites))
      · exact absurd hnone hrow
      · rw [hnew, Option.some.injEq] at hwrites
        refine .inr ⟨old.effectiveCount, ?_, by rw [← hwrites, Row.effectiveCount_apply]⟩
        rw [OpenTransaction.fst_read, Option.or_eq_some_iff] at hold'
        rcases hold' with hown | ⟨-, hcur⟩
        · exact hold old hown
        · exact .committed hcur
    · exact .inl (.written hu hbase hwrites)

/-- What a forgotten transaction has written counts no longer. -/
theorem Attains.of_abandon {m rollbacks : Nat}
    (hc : Attains { db.abandon m with rollbacks := rollbacks } key c) : Attains db key c := by
  cases hc with
  | committed hcur => exact .committed hcur
  | written ht hbase hwrites => exact .written (opened_of_abandon ht).2 hbase hwrites

/-- A request adds at most one to what a row may come to count, where one is committed. -/
theorem History.Invariant.attains (h : Invariant rows s) (hlife : Life s.db e db')
    (hrow : s.db.rows.get? key ≠ none) (hc : Attains db' key c) :
    Attains s.db key c ∨ ∃ c', Attains s.db key c' ∧ c = c' + 1 := by
  cases hlife with
  | begun ctx =>
    cases hc with
    | committed hcur => exact .inl (.committed hcur)
    | written ht hbase hwrites =>
      simp only [begin, Table.get?_insert] at ht
      split at ht
      · cases ht
        cases hwrites
      · exact .inl (.written ht hbase hwrites)
  | refused r m hr hm => exact .inl hc
  | worked r m k u hr hu => exact attains_withOpen hr hu hrow hc
  | committed m u hu hcurrent =>
    cases hc with
    | committed hcur => exact .inl (h.attains_writeTo hu hcurrent hcur)
    | @written n t row ht hbase hwrites =>
      have hold := (opened_of_abandon ht).2
      obtain ⟨cur, hcur⟩ := Option.ne_none_iff_exists'.1 hrow
      have hchange := (h.tracks m u key hu).rowChange hcurrent
      rw [hcur] at hchange
      obtain ⟨cur', hcur', hprecedes⟩ := hchange.precedes
      have hcount : (u.writeTo s.db.rows).count? key = some cur'.effectiveCount := by
        rw [Rows.count?, hcur', Option.map_some]
      -- it remembers what is committed now, so the commit has left the row as it was
      rw [hcount] at hbase
      obtain ⟨seen, hseen, hle⟩ := h.seen ⟨n, t, hold, hbase⟩
      obtain rfl := Option.some.inj (hcur.symm.trans hseen)
      obtain rfl := hprecedes.eq_of_count_le hle
      refine .inl (.written hold ?_ hwrites)
      rw [hbase, Rows.count?, hcur, Option.map_some]
  | failed m u hu hcurrent => exact .inl hc.of_abandon
  | rolledBack m u hu => exact .inl hc.of_abandon

/-- A row never comes to count more than what is remembered of it, and one for each request. -/
theorem History.attains_le_remembered (rows : Rows) (rs : List Request) {v c : Nat}
    (hv : Remembers (after rows rs).db key v) (hc : Attains (after rows rs).db key c) :
    c ≤ v + (after rows rs).log.length := by
  refine after_induction (P := fun s => ∀ v c, Remembers s.db key v → Attains s.db key c →
    c ≤ v + s.log.length) ?_ (fun rs r ih v c hv hc => ?_) rs v c hv hc
  · rintro v c ⟨n, t, ht, -⟩
    cases ht
  · have hinv := invariant_after rows rs
    have hlife := life_step (after rows rs).db r
    have hbound : ∃ cur, (after rows rs).db.rows.get? key = some cur ∧
        ∀ c, Attains (after rows rs).db key c → c ≤ v + (after rows rs).log.length := by
      rcases hlife.remembers hv with hold | hread
      · obtain ⟨cur, hcur, -⟩ := hinv.seen hold
        exact ⟨cur, hcur, fun c hc => ih v c hold hc⟩
      · obtain ⟨cur, hcur, rfl⟩ := Option.map_eq_some_iff.1 hread
        exact ⟨cur, hcur, fun c hc => hinv.attains_le_committed hcur hc⟩
    obtain ⟨cur, hcur, hle⟩ := hbound
    have hrow : (after rows rs).db.rows.get? key ≠ none := by simp [hcur]
    rcases hinv.attains hlife hrow hc with hsame | ⟨c', hless, rfl⟩
    · exact Nat.le_succ_of_le (hle c hsame)
    · exact Nat.succ_le_succ (hle c' hless)

theorem History.length_log_after (rows : Rows) (rs : List Request) :
    (after rows rs).log.length = rs.length := by
  have hfrom : ∀ s : History, (rs.foldl ask s).log.length = s.log.length + rs.length := by
    induction rs with
    | nil => exact fun s => rfl
    | cons r rs ih =>
      intro s
      rw [List.foldl_cons, ih, ask, List.length_cons, List.length_cons]
      omega
  exact (hfrom (opening rows)).trans (Nat.zero_add rs.length)

theorem commit_succeeds_iff {n : Nat} {t : OpenTransaction} (ht : db.opened.get? n = some t) :
    (db.step (.commit n)).1 = .ok () ↔ t.isCurrent db.rows = true := by
  have hstep : db.step (.commit n) = db.commit n t := by simp only [step, ht]
  rw [hstep]
  by_cases hcurrent : t.isCurrent db.rows = true
  · rw [commit_of_isCurrent db n hcurrent]
    exact iff_of_true rfl hcurrent
  · rw [commit_of_not_isCurrent db n hcurrent]
    exact iff_of_false (by simp) hcurrent

/-- **Versions are checked at a commit.** Take any requests of any number of transactions in any
order, fewer than there are versions. The commit of an open transaction succeeds exactly if every
row that it wrote is at the version that it had when the transaction first read it, and is not there
if it was not there then. -/
theorem commit_checks_versions (rows : Rows) (rs : List Request) (hrs : rs.length < UInt64.size)
    {n : Nat} {t : OpenTransaction} (ht : (History.after rows rs).db.opened.get? n = some t) :
    ((History.after rows rs).db.step (.commit n)).1 = .ok () ↔
      ∀ key row, t.writes.get? key = some row →
        ((History.after rows rs).db.rows.get? key).map Row.effectiveVersion =
          (t.base.get? key).join.map .ofNat := by
  have hinv := History.invariant_after rows rs
  rw [commit_succeeds_iff ht, OpenTransaction.isCurrent_iff]
  refine forall₃_congr fun key row hw => ?_
  rw [Rows.map_effectiveVersion]
  refine ⟨congrArg _, fun hversions => ?_⟩
  cases hcount : (History.after rows rs).db.rows.count? key with
  | none =>
    rw [hcount, Option.map_none] at hversions
    exact (Option.map_eq_none_iff.1 hversions.symm).symm
  | some a =>
    rw [hcount, Option.map_some] at hversions
    obtain ⟨v, hv, hsame⟩ := Option.map_eq_some_iff.1 hversions.symm
    obtain ⟨cur, hcur, rfl⟩ := Option.map_eq_some_iff.1 hcount
    have hremembers : Remembers (History.after rows rs).db key v :=
      ⟨n, t, ht, Option.join_eq_some_iff.1 hv⟩
    obtain ⟨cur', hcur', hle⟩ := hinv.seen hremembers
    obtain rfl := Option.some.inj (hcur.symm.trans hcur')
    have hbound := History.attains_le_remembered rows rs hremembers (.committed hcur)
    rw [History.length_log_after] at hbound
    rw [hv, eq_of_ofNat_eq hsame.symm hle (by omega)]

end Database

end GuardedWrites

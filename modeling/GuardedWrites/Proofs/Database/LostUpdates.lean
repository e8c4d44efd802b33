import GuardedWrites.Proofs.Database.History

/-!
# No update is lost

A transaction does not read from a snapshot: between two of its reads another one may commit, so a
row that it patches may be newer than the state that it remembers. Three facts make its commit sound
all the same. Committed rows only move forward, and two states of a row with one count are the same
state (`Rows.Precedes`); a buffered row is some state of the committed row, not older than the
remembered one, with the patches applied (`Buffered`); and a commit asks that the remembered count
is still the committed one.

* `History.invariant_after` — both facts about buffered rows hold after every list of requests;
* `commits_lose_no_update` — what each request of each interleaving does to the committed rows.
-/

namespace GuardedWrites

open TransactionalStore (Request)

/-! ### Committed rows move forward -/

/-- One state of a row comes before another: it is the same state, or it counts less. -/
def Row.Precedes (a b : Row) : Prop := a = b ∨ a.effectiveCount < b.effectiveCount

namespace Row.Precedes

theorem refl (a : Row) : a.Precedes a := .inl rfl

theorem trans {a b c : Row} (h : a.Precedes b) (k : b.Precedes c) : a.Precedes c := by
  rcases h with rfl | h
  · exact k
  · rcases k with rfl | k
    · exact .inr h
    · exact .inr (Nat.lt_trans h k)

theorem count_le {a b : Row} (h : a.Precedes b) : a.effectiveCount ≤ b.effectiveCount := by
  rcases h with rfl | h
  · exact Nat.le_refl _
  · exact Nat.le_of_lt h

/-- Versions move forward as long as the count has 64 bits. -/
theorem version_le {a b : Row} (h : a.Precedes b) (hb : b.effectiveCount < UInt64.size) :
    a.effectiveVersion ≤ b.effectiveVersion := by
  rw [UInt64.le_iff_toNat_le, Row.toNat_effectiveVersion (Nat.lt_of_le_of_lt h.count_le hb),
    Row.toNat_effectiveVersion hb]
  exact h.count_le

theorem eq_of_count_le {a b : Row} (h : a.Precedes b) (hv : b.effectiveCount ≤ a.effectiveCount) :
    a = b := by
  rcases h with rfl | h
  · rfl
  · omega

end Row.Precedes

/-- One state of the committed rows comes before another: no row is gone, and none has moved
back. -/
def Rows.Precedes (rows rows' : Rows) : Prop :=
  ∀ key row, rows.get? key = some row → ∃ row', rows'.get? key = some row' ∧ row.Precedes row'

namespace Rows.Precedes

theorem refl (rows : Rows) : Rows.Precedes rows rows := fun _ row h => ⟨row, h, .refl row⟩

theorem trans {a b c : Rows} (h : Rows.Precedes a b) (k : Rows.Precedes b c) :
    Rows.Precedes a c := by
  intro key row hrow
  obtain ⟨row', hrow', hle⟩ := h key row hrow
  obtain ⟨row'', hrow'', hle'⟩ := k key row' hrow'
  exact ⟨row'', hrow'', hle.trans hle'⟩

end Rows.Precedes

/-! ### The operations of an open transaction, key by key -/

namespace OpenTransaction

theorem writes_read (t : OpenTransaction) (rows : Rows) (key : RowKey) :
    (t.read rows key).2.writes = t.writes := by
  unfold read remember
  split
  · rfl
  · dsimp only
    split <;> rfl

/-- A read remembers what a committed row counts that is neither written nor remembered, and nothing
else. -/
theorem base_read (t : OpenTransaction) (rows : Rows) (key k : RowKey) :
    (t.read rows key).2.base.get? k =
      if k = key ∧ t.writes.get? key = none ∧ t.base.get? key = none then some (rows.count? key)
      else t.base.get? k := by
  unfold read remember Table.has
  cases hw : t.writes.get? key with
  | some row => simp
  | none =>
    cases hb : t.base.get? key with
    | some v => simp
    | none =>
      by_cases hk : k = key
      · subst hk
        simp [Table.get?_insert]
      · have hk' : ¬ key = k := fun e => hk e.symm
        simp [Table.get?_insert, hk, hk']

theorem fst_read (t : OpenTransaction) (rows : Rows) (key : RowKey) :
    (t.read rows key).1 = (t.writes.get? key).or (rows.get? key) := by
  unfold read
  split <;> simp [*]

theorem isCurrent_iff (t : OpenTransaction) (rows : Rows) :
    t.isCurrent rows = true ↔
      ∀ key row, t.writes.get? key = some row → rows.count? key = (t.base.get? key).join := by
  simp only [isCurrent, List.all_eq_true, decide_eq_true_eq, Prod.forall, Table.get?_eq_some_iff]

/-- Writing entries over a map: the entries win. -/
theorem get?_foldl_insert {es : List (RowKey × Row)} (hes : (es.map Prod.fst).Nodup) (rows : Rows)
    (key : RowKey) :
    (es.foldl (fun rows e => rows.insert e.1 e.2) rows).get? key =
      (Entries.get? key es).or (rows.get? key) := by
  induction es generalizing rows with
  | nil => simp [Entries.get?]
  | cons e es ih =>
    obtain ⟨k, row⟩ := e
    have hk : k ∉ es.map Prod.fst := (List.nodup_cons.1 hes).1
    rw [List.foldl_cons, ih (List.nodup_cons.1 hes).2, Table.get?_insert, Entries.get?]
    by_cases h : k = key
    · subst h
      simp [(Entries.get?_eq_none_iff k es).2 hk]
    · simp [h]

theorem get?_writeTo (t : OpenTransaction) (rows : Rows) (key : RowKey) :
    (t.writeTo rows).get? key = (t.writes.get? key).or (rows.get? key) :=
  get?_foldl_insert t.writes.distinct rows key

end OpenTransaction

namespace Database

/-! ### What an open transaction holds about one row -/

/-- A buffered row, given what is remembered of its count and what is committed: it is a row that
the transaction inserted where none had been seen, or a state of the committed row that was not
older than the remembered one, with all patches applied in order. -/
def Buffered (committed : Option Row) (base : Option (Option Nat)) (ws : List Write)
    (row : Row) : Prop :=
  ∃ start, row = (patches ws).foldl Row.apply start ∧
    (insertions ws = [start] ∧ base = some none ∨
      insertions ws = [] ∧ patches ws ≠ [] ∧
        ∃ seen cur, base = some seen ∧ (∀ v, seen = some v → v ≤ start.effectiveCount) ∧
          committed = some cur ∧ start.Precedes cur)

namespace Buffered

variable {committed : Option Row} {base : Option (Option Nat)} {ws : List Write} {row : Row}

/-- The first write to a row: it is inserted where none had been seen. -/
theorem inserted (committed : Option Row) (row : Row) :
    Buffered committed (some none) [.inserted row] row :=
  ⟨row, by simp, .inl ⟨by simp, rfl⟩⟩

/-- The first write to a row: the row that is committed at this moment is patched, which may be
newer than the state seen at first. -/
theorem patched {seen : Option Nat} {cur : Row}
    (hseen : ∀ v, seen = some v → v ≤ cur.effectiveCount) (patch : Fields) :
    Buffered (some cur) (some seen) [.patched patch] (cur.apply patch) :=
  ⟨cur, rfl, .inr ⟨rfl, by simp, seen, cur, rfl, hseen, rfl, .refl cur⟩⟩

/-- A patch on top of the transaction's own writes. -/
theorem apply (h : Buffered committed base ws row) (patch : Fields) :
    Buffered committed base (ws ++ [.patched patch]) (row.apply patch) := by
  obtain ⟨start, hstart, hcase⟩ := h
  refine ⟨start, by simp [List.foldl_append, ← hstart], ?_⟩
  rcases hcase with ⟨hins, hbase⟩ | ⟨hins, -, hrest⟩
  · exact .inl ⟨by simp [hins], hbase⟩
  · exact .inr ⟨by simp [hins], by simp, hrest⟩

end Buffered

/-- What an open transaction holds about a row, given its writes to it. -/
structure Tracks (rows : Rows) (t : OpenTransaction) (key : RowKey) (ws : List Write) : Prop where
  seen : ∀ v, t.base.get? key = some (some v) →
    ∃ cur, rows.get? key = some cur ∧ v ≤ cur.effectiveCount
  unwritten : t.writes.get? key = none → ws = []
  written : ∀ row, t.writes.get? key = some row → Buffered (rows.get? key) (t.base.get? key) ws row

namespace Tracks

variable {rows rows' : Rows} {t : OpenTransaction} {key k : RowKey} {ws : List Write}

theorem new (rows : Rows) (isolation : IsolationLevel) (key : RowKey) :
    Tracks rows (.new isolation) key [] where
  seen v h := by simp [OpenTransaction.new] at h
  unwritten _ := rfl
  written row h := by simp [OpenTransaction.new] at h

/-- Commits of others take nothing away. -/
theorem mono (h : Tracks rows t key ws) (hrows : Rows.Precedes rows rows') :
    Tracks rows' t key ws where
  seen v hv := by
    obtain ⟨cur, hcur, hle⟩ := h.seen v hv
    obtain ⟨cur', hcur', hprec⟩ := hrows key cur hcur
    exact ⟨cur', hcur', Nat.le_trans hle hprec.count_le⟩
  unwritten := h.unwritten
  written row hrow := by
    obtain ⟨start, hstart, hcase⟩ := h.written row hrow
    refine ⟨start, hstart, hcase.imp_right ?_⟩
    rintro ⟨hins, hpat, seen, cur, hbase, hseen, hcur, hprec⟩
    obtain ⟨cur', hcur', hprec'⟩ := hrows key cur hcur
    exact ⟨hins, hpat, seen, cur', hbase, hseen, hcur', hprec.trans hprec'⟩

theorem read (h : Tracks rows t key ws) : Tracks rows (t.read rows k).2 key ws where
  seen v hv := by
    rw [OpenTransaction.base_read] at hv
    split at hv
    · rename_i hk
      obtain ⟨rfl, -, -⟩ := hk
      simp only [Rows.count?, Option.some.injEq, Option.map_eq_some_iff] at hv
      obtain ⟨cur, hcur, rfl⟩ := hv
      exact ⟨cur, hcur, Nat.le_refl _⟩
    · exact h.seen v hv
  unwritten hw := h.unwritten (by rwa [OpenTransaction.writes_read] at hw)
  written row hrow := by
    rw [OpenTransaction.writes_read] at hrow
    have hbase : (t.read rows k).2.base.get? key = t.base.get? key := by
      rw [OpenTransaction.base_read, if_neg]
      rintro ⟨rfl, hnone, -⟩
      simp [hnone] at hrow
    rw [hbase]
    exact h.written row hrow

/-- After a read of a row that the transaction has not written, a count of it is remembered, and
that is no higher than the committed one. -/
theorem base_after_read (h : Tracks rows t key ws) (hw : t.writes.get? key = none) :
    ∃ seen, (t.read rows key).2.base.get? key = some seen ∧
      ∀ v, seen = some v → ∃ cur, rows.get? key = some cur ∧ v ≤ cur.effectiveCount := by
  have hread : Tracks rows (t.read rows key).2 key ws := h.read
  have hsome : ∃ seen, (t.read rows key).2.base.get? key = some seen := by
    rw [OpenTransaction.base_read]
    cases hb : t.base.get? key with
    | none => simp [hw]
    | some seen => simp
  obtain ⟨seen, hseen⟩ := hsome
  exact ⟨seen, hseen, fun v hv => hread.seen v (by rw [hseen, hv])⟩

/-- A row that is written under another key makes no difference. -/
theorem write_of_ne (h : Tracks rows t key ws) (hk : ¬ k = key) (row : Row) :
    Tracks rows { t with writes := t.writes.insert k row } key ws where
  seen := h.seen
  unwritten hn := by
    rw [Table.get?_insert, if_neg hk] at hn
    exact h.unwritten hn
  written row' hrow' := by
    rw [Table.get?_insert, if_neg hk] at hrow'
    exact h.written row' hrow'

theorem write_self {ws' : List Write} {row : Row} (h : Tracks rows t key ws)
    (hrow : Buffered (rows.get? key) (t.base.get? key) ws' row) :
    Tracks rows { t with writes := t.writes.insert key row } key ws' where
  seen := h.seen
  unwritten hn := by simp [Table.get?_insert] at hn
  written row' hrow' := by
    rw [Table.get?_insert, if_pos rfl, Option.some.injEq] at hrow'
    rwa [← hrow']

theorem insert (h : Tracks rows t key ws) (tx : Nat) (table : String) (row : Row) :
    Tracks rows (t.insert rows table row).2 key
      (ws ++ (Event.write? tx key ⟨.insert tx table row, (t.insert rows table row).1⟩).toList) := by
  have hread : Tracks rows (t.read rows (table, row.id)).2 key ws := h.read
  have hfst := t.fst_read rows (table, row.id)
  unfold OpenTransaction.insert
  split
  · rename_i t' heq
    rw [heq] at hread
    simpa [Event.write?] using hread
  · rename_i t' heq
    rw [heq] at hread hfst
    by_cases hk : (table, row.id) = key
    · subst hk
      obtain ⟨hw, hcommitted⟩ := Option.or_eq_none_iff.1 hfst.symm
      obtain ⟨seen, hbase, hseen⟩ := h.base_after_read hw
      rw [heq] at hbase
      -- nothing is committed under the key, so no row was ever seen there
      have hnone : seen = none := by
        cases seen with
        | none => rfl
        | some v =>
          obtain ⟨cur, hcur, -⟩ := hseen v rfl
          simp [hcommitted] at hcur
      have hwrite : Event.write? tx (table, row.id) ⟨.insert tx table row, .ok ()⟩ =
          some (.inserted row) := by
        simp [Event.write?]
      rw [hwrite, h.unwritten hw]
      refine hread.write_self ?_
      rw [hbase, hnone]
      exact .inserted _ row
    · have hwrite : Event.write? tx key ⟨.insert tx table row, .ok ()⟩ = none := by
        simp [Event.write?, hk]
      rw [hwrite, Option.toList_none, List.append_nil]
      exact hread.write_of_ne hk row

theorem update (h : Tracks rows t key ws) (tx : Nat) (table id : String) (patch : Fields)
    (expected : Option UInt64) :
    Tracks rows (t.update rows (table, id) patch expected).2 key
      (ws ++ (Event.write? tx key
        ⟨.update tx table id patch expected,
          .ok (t.update rows (table, id) patch expected).1⟩).toList) := by
  have hread : Tracks rows (t.read rows (table, id)).2 key ws := h.read
  have hfst := t.fst_read rows (table, id)
  have hwrites := t.writes_read rows (table, id)
  unfold OpenTransaction.update
  split
  · rename_i t' heq
    rw [heq] at hread
    simpa [Event.write?] using hread
  · rename_i old t' heq
    rw [heq] at hread hfst hwrites
    split
    · simpa [Event.write?] using hread
    · by_cases hk : (table, id) = key
      · subst hk
        have hwrite : Event.write? tx (table, id) ⟨.update tx table id patch expected, .ok 1⟩ =
            some (.patched patch) := by
          simp [Event.write?]
        rw [hwrite]
        refine hread.write_self ?_
        cases hw : t.writes.get? (table, id) with
        | some own =>
          rw [hw, Option.some_or, Option.some.injEq] at hfst
          subst hfst
          exact (hread.written old (by rw [hwrites, hw])).apply patch
        | none =>
          -- what is patched is the row that is committed at this moment
          rw [hw, Option.none_or] at hfst
          obtain ⟨seen, hbase, hseen⟩ := h.base_after_read hw
          rw [heq] at hbase
          rw [h.unwritten hw, hbase, ← hfst]
          refine .patched (fun v hv => ?_) patch
          obtain ⟨cur, hcur, hle⟩ := hseen v hv
          rw [← hfst, Option.some.injEq] at hcur
          rwa [hcur]
      · have hwrite : Event.write? tx key ⟨.update tx table id patch expected, .ok 1⟩ = none := by
          simp [Event.write?, hk]
        rw [hwrite, Option.toList_none, List.append_nil]
        exact hread.write_of_ne hk (old.apply patch)

/-- If the remembered count of every written row is the committed one, writing makes of each row
what its writes say. -/
theorem rowChange (h : Tracks rows t key ws) (hcurrent : t.isCurrent rows = true) :
    RowChange ws (rows.get? key) ((t.writeTo rows).get? key) := by
  rw [OpenTransaction.get?_writeTo]
  cases hw : t.writes.get? key with
  | none => exact .inl ⟨h.unwritten hw, by simp⟩
  | some row =>
    obtain ⟨start, hrow, hcase⟩ := h.written row hw
    have hcount := (t.isCurrent_iff rows).1 hcurrent key row hw
    have hlength : row.effectiveCount = start.effectiveCount + (patches ws).length := by
      rw [hrow, effectiveCount_foldl_apply]
    have hraised : row.effectiveVersion = start.effectiveVersion + .ofNat (patches ws).length := by
      rw [hrow, effectiveVersion_foldl_apply]
    refine .inr ⟨start, row, ?_, ?_, by simp, hrow, hlength, hraised⟩
    · rintro rfl
      rcases hcase with ⟨hins, -⟩ | ⟨-, hpat, -⟩
      · simp [insertions] at hins
      · exact hpat rfl
    · rcases hcase with ⟨hins, hbase⟩ | ⟨hins, -, seen, cur, hbase, hseen, hcur, hprec⟩
      · simp only [hbase, Option.join_some, Rows.count?, Option.map_eq_none_iff] at hcount
        exact .inr ⟨hcount, hins⟩
      · -- the committed row counts what it did at first, so it is the very row that was patched
        simp only [Rows.count?, hcur, hbase, Option.join_some, Option.map_some] at hcount
        have heq : start = cur := hprec.eq_of_count_le (hseen _ hcount.symm)
        exact .inl ⟨by rw [hcur, heq], hins⟩

end Tracks

/-! ### What one request can do -/

/-- What a request, told by its event, can do to a store: nothing, begin a transaction, work in an
open one, end one without effect, or commit one. -/
inductive Did (db : Database) (e : Event) : Database → Prop where
  | nothing (hc : e.committed? = none) (hw : ∀ n key, e.write? n key = none) : Did db e db
  | begun (isolation : IsolationLevel) (hc : e.committed? = none)
      (hw : ∀ n key, e.write? n key = none) :
    Did db e (db.begin isolation).2
  | worked (n : Nat) (t t' : OpenTransaction) (ht : db.opened.get? n = some t)
    (hc : e.committed? = none) (hw : ∀ m key, m ≠ n → e.write? m key = none)
    (hn : ∀ key ws, Tracks db.rows t key ws →
      Tracks db.rows t' key (ws ++ (e.write? n key).toList)) :
    Did db e (db.withOpen n t')
  | ended (n rollbacks : Nat) (hc : e.committed? = none) (hw : ∀ m key, e.write? m key = none) :
    Did db e { db.abandon n with rollbacks := rollbacks }
  | committed (n commits : Nat) (t : OpenTransaction) (ht : db.opened.get? n = some t)
    (hcurrent : t.isCurrent db.rows = true) (hc : e.committed? = some n)
    (hw : ∀ m key, e.write? m key = none) :
    Did db e { db.abandon n with rows := t.writeTo db.rows, commits := commits }

/-- What is open after one transaction is forgotten is another one. -/
theorem opened_of_abandon {db : Database} {m n : Nat} {t : OpenTransaction}
    (h : (db.abandon m).opened.get? n = some t) : m ≠ n ∧ db.opened.get? n = some t := by
  simp only [abandon, Table.get?_erase] at h
  split at h
  · cases h
  · exact ⟨‹_›, h⟩

theorem commit_of_isCurrent (db : Database) (n : Nat) {t : OpenTransaction}
    (h : t.isCurrent db.rows = true) :
    db.commit n t =
      (.ok (), { db.abandon n with
        rows := t.writeTo db.rows, commits := db.commits + 1 }) := by
  simp [commit, abandon, h]

theorem commit_of_not_isCurrent (db : Database) (n : Nat) {t : OpenTransaction}
    (h : ¬ t.isCurrent db.rows = true) :
    db.commit n t =
      (.error .serializationFailure, { db.abandon n with rollbacks := db.rollbacks + 1 }) := by
  simp [commit, abandon, h]

theorem did_step (db : Database) (r : Request) : Did db ⟨r, (db.step r).1⟩ (db.step r).2 := by
  cases r with
  | begin context => exact .begun context.isolation rfl fun _ _ => rfl
  | fetch n table id =>
    simp only [step]
    split
    · exact .nothing rfl fun _ _ => rfl
    · rename_i t ht
      exact .worked n t _ ht rfl (fun _ _ _ => rfl)
        fun key ws h => by simpa [Event.write?] using h.read
  | insert n table row =>
    simp only [step]
    split
    · exact .nothing rfl fun _ _ => rfl
    · rename_i t ht
      refine .worked n t _ ht ?_ (fun m key hm => ?_) fun key ws h => h.insert n table row
      · rfl
      · cases (t.insert db.rows table row).1 with
        | error e => rfl
        | ok u => simp [Event.write?, hm.symm]
  | update n table id patch expected =>
    simp only [step]
    split
    · exact .nothing rfl fun _ _ => rfl
    · rename_i t ht
      exact .worked n t _ ht rfl (fun m key hm => by simp [Event.write?, hm.symm])
        fun key ws h => h.update n table id patch expected
  | commit n =>
    simp only [step]
    split
    · exact .nothing rfl fun _ _ => rfl
    · rename_i t ht
      by_cases hcurrent : t.isCurrent db.rows = true
      · rw [commit_of_isCurrent db n hcurrent]
        exact .committed n _ t ht hcurrent rfl fun _ _ => rfl
      · rw [commit_of_not_isCurrent db n hcurrent]
        exact .ended n _ rfl fun _ _ => rfl
  | rollback n =>
    simp only [step]
    split
    · exact .nothing rfl fun _ _ => rfl
    · exact .ended n _ rfl fun _ _ => rfl

/-! ### Every history -/

namespace Did

variable {db db' : Database} {e : Event}

/-- The writes that a commit makes, row by row. -/
theorem rowChange {tx : Nat} {key : RowKey} {ws : List Write} (h : Did db e db')
    (hc : e.committed? = some tx) (ht : ∀ t, db.opened.get? tx = some t → Tracks db.rows t key ws) :
    RowChange ws (db.rows.get? key) (db'.rows.get? key) := by
  cases h with
  | nothing hn => simp [hn] at hc
  | begun isolation hn => simp [hn] at hc
  | worked n t t' hopen hn => simp [hn] at hc
  | ended n rollbacks hn => simp [hn] at hc
  | committed n commits t hopen hcurrent hn =>
    rw [hn, Option.some.injEq] at hc
    subst hc
    exact (ht t hopen).rowChange hcurrent

theorem rows_of_not_committed (h : Did db e db') (hc : e.committed? = none) :
    db'.rows = db.rows := by
  cases h with
  | nothing => rfl
  | begun => rfl
  | worked => rfl
  | ended => rfl
  | committed n commits t hopen hcurrent hn => simp [hn] at hc

end Did

theorem RowChange.precedes {ws : List Write} {old : Row} {new : Option Row}
    (h : RowChange ws (some old) new) :
    ∃ row, new = some row ∧ old.Precedes row := by
  rcases h with ⟨-, rfl⟩ | ⟨start, row, hne, hstart, rfl, hrow, hcount, -⟩
  · exact ⟨old, rfl, .refl old⟩
  · rcases hstart with ⟨hold, hins⟩ | ⟨hold, -⟩
    · cases hold
      refine ⟨row, rfl, ?_⟩
      cases hps : patches ws with
      | nil =>
        rw [hps] at hrow
        exact .inl hrow.symm
      | cons p ps =>
        rw [hps, List.length_cons] at hcount
        exact .inr (by omega)
    · cases hold

namespace History

/-- What holds of every history of a store that began with given rows. -/
structure Invariant (rows : Rows) (s : History) : Prop where
  numbered : ∀ n t, s.db.opened.get? n = some t → n < s.db.begun
  silent : ∀ n key, s.db.begun ≤ n → writes n key s.log = []
  tracks : ∀ n t key, s.db.opened.get? n = some t → Tracks s.db.rows t key (writes n key s.log)
  forward : Rows.Precedes rows s.db.rows
  once : ∀ key, insertedUnder key s.log = [] ∨
    (insertedUnder key s.log).length = 1 ∧ rows.get? key = none ∧ s.db.rows.get? key ≠ none

theorem invariant_opening (rows : Rows) : Invariant rows (opening rows) where
  numbered n t h := by simp [opening] at h
  silent n key _ := rfl
  tracks n t key h := by simp [opening] at h
  forward := .refl rows
  once key := .inl rfl

theorem Invariant.precedes {rows : Rows} {s : History} {e : Event} {db' : Database}
    (h : Invariant rows s) (hdid : Did s.db e db') :
    Rows.Precedes s.db.rows db'.rows := by
  intro key row hrow
  cases hc : e.committed? with
  | none => exact ⟨row, by rw [hdid.rows_of_not_committed hc, hrow], .refl row⟩
  | some tx =>
    have hchange : RowChange _ (s.db.rows.get? key) (db'.rows.get? key) :=
      hdid.rowChange hc fun t ht => h.tracks tx t key ht
    rw [hrow] at hchange
    exact hchange.precedes

theorem writes_cons_of_none {n : Nat} {key : RowKey} {e : Event} (h : e.write? n key = none)
    (log : List Event) : writes n key (e :: log) = writes n key log := by
  simp [writes, h]

theorem Invariant.opened {rows : Rows} {s : History} {e : Event} {db' : Database}
    (h : Invariant rows s) (hdid : Did s.db e db') (n : Nat) (t : OpenTransaction)
    (ht : db'.opened.get? n = some t) :
    n < db'.begun ∧ ∀ key, Tracks s.db.rows t key (writes n key (e :: s.log)) := by
  cases hdid with
  | nothing hc hw =>
    refine ⟨h.numbered n t ht, fun key => ?_⟩
    rw [writes_cons_of_none (hw n key)]
    exact h.tracks n t key ht
  | begun isolation hc hw =>
    simp only [begin, Table.get?_insert] at ht
    split at ht
    · rename_i hn
      obtain rfl := Option.some.inj ht
      refine ⟨by simp [begin, hn], fun key => ?_⟩
      rw [writes_cons_of_none (hw n key), h.silent n key (Nat.le_of_eq hn)]
      exact .new s.db.rows isolation key
    · refine ⟨Nat.lt_succ_of_lt (h.numbered n t ht), fun key => ?_⟩
      rw [writes_cons_of_none (hw n key)]
      exact h.tracks n t key ht
  | worked m u u' hu hc hw hm =>
    simp only [withOpen, Table.get?_insert] at ht
    split at ht
    · rename_i hn
      subst hn
      obtain rfl := Option.some.inj ht
      exact ⟨h.numbered m u hu, fun key => hm key _ (h.tracks m u key hu)⟩
    · rename_i hn
      refine ⟨h.numbered n t ht, fun key => ?_⟩
      rw [writes_cons_of_none (hw n key fun e => hn e.symm)]
      exact h.tracks n t key ht
  | ended m rollbacks hc hw =>
    have hold := (opened_of_abandon ht).2
    refine ⟨h.numbered n t hold, fun key => ?_⟩
    rw [writes_cons_of_none (hw n key)]
    exact h.tracks n t key hold
  | committed m commits u hu hcurrent hc hw =>
    have hold := (opened_of_abandon ht).2
    refine ⟨h.numbered n t hold, fun key => ?_⟩
    rw [writes_cons_of_none (hw n key)]
    exact h.tracks n t key hold

/-- A number that is not given out yet has written nothing. -/
theorem Invariant.silent_step {rows : Rows} {s : History} {e : Event} {db' : Database}
    (h : Invariant rows s) (hdid : Did s.db e db') (n : Nat) (key : RowKey) (hn : db'.begun ≤ n) :
    writes n key (e :: s.log) = [] := by
  cases hdid with
  | nothing hc hw => rw [writes_cons_of_none (hw n key), h.silent n key hn]
  | begun isolation hc hw =>
    rw [writes_cons_of_none (hw n key), h.silent n key (Nat.le_of_succ_le hn)]
  | worked m u u' hu hc hw hm =>
    have hne : n ≠ m := by
      have hlt := h.numbered m u hu
      rintro rfl
      exact Nat.lt_irrefl _ (Nat.lt_of_lt_of_le hlt hn)
    rw [writes_cons_of_none (hw n key hne), h.silent n key hn]
  | ended m rollbacks hc hw => rw [writes_cons_of_none (hw n key), h.silent n key hn]
  | committed m commits u hu hcurrent hc hw =>
    rw [writes_cons_of_none (hw n key), h.silent n key hn]

/-- A row is inserted only where none is committed, and then there is one for good. -/
theorem Invariant.once_step {rows : Rows} {s : History} {e : Event} {db' : Database}
    (h : Invariant rows s) (hdid : Did s.db e db') (key : RowKey) :
    insertedUnder key (e :: s.log) = [] ∨ (insertedUnder key (e :: s.log)).length = 1 ∧
      rows.get? key = none ∧ db'.rows.get? key ≠ none := by
  have hstays : s.db.rows.get? key ≠ none → db'.rows.get? key ≠ none := by
    intro hne
    obtain ⟨row, hrow⟩ := Option.ne_none_iff_exists'.1 hne
    obtain ⟨row', hrow', -⟩ := h.precedes hdid key row hrow
    simp [hrow']
  have hold : insertedUnder key s.log = [] ∨ (insertedUnder key s.log).length = 1 ∧
      rows.get? key = none ∧ db'.rows.get? key ≠ none := by
    rcases h.once key with hnil | ⟨hone, hnone, hne⟩
    · exact .inl hnil
    · exact .inr ⟨hone, hnone, hstays hne⟩
  cases hc : e.committed? with
  | none => simpa [insertedUnder, hc] using hold
  | some tx =>
    simp only [insertedUnder, hc]
    have hchange : RowChange _ (s.db.rows.get? key) (db'.rows.get? key) :=
      hdid.rowChange hc fun t ht => h.tracks tx t key ht
    -- only a commit that finds no row under the key inserts one, and the forward order keeps it
    -- there
    rcases hchange with ⟨hws, -⟩ | ⟨start, row, -, ⟨-, hins⟩ | ⟨hnone, hins⟩, hnew, -⟩
    · simpa [hws, insertions] using hold
    · simpa [hins] using hold
    · have hfirst : insertedUnder key s.log = [] := by
        rcases h.once key with hnil | ⟨-, -, hne⟩
        · exact hnil
        · exact absurd hnone hne
      have hrows : rows.get? key = none := by
        cases hr : rows.get? key with
        | none => rfl
        | some old =>
          obtain ⟨cur, hcur, -⟩ := h.forward key old hr
          simp [hnone] at hcur
      exact .inr ⟨by simp [hins, hfirst], hrows, by simp [hnew]⟩

theorem Invariant.ask {rows : Rows} {s : History} (h : Invariant rows s) (r : Request) :
    Invariant rows (s.ask r) := by
  have hdid := did_step s.db r
  have hforward := h.precedes hdid
  exact {
    numbered := fun n t ht => (h.opened hdid n t ht).1
    silent := h.silent_step hdid
    tracks := fun n t key ht => ((h.opened hdid n t ht).2 key).mono hforward
    forward := h.forward.trans hforward
    once := h.once_step hdid }

theorem Invariant.foldl_ask {rows : Rows} {s : History} (h : Invariant rows s) (rs : List Request) :
    Invariant rows (rs.foldl History.ask s) := by
  induction rs generalizing s with
  | nil => exact h
  | cons r rs ih => exact ih (h.ask r)

theorem invariant_after (rows : Rows) (rs : List Request) : Invariant rows (after rows rs) :=
  (invariant_opening rows).foldl_ask rs

end History

/-- **No update is lost.** Take a store with any committed rows, any requests of any number of
transactions in any order, and one more request. Unless that request is a commit that succeeds, the
committed rows stay as they are. If it is, every row becomes what the writes of that transaction
make of the row committed just before. No row ever counts less than before, so as long as its count
has 64 bits its version does not decrease. Under each key at most one row is ever inserted, none
where there was one at the start. -/
theorem commits_lose_no_update (rows : Rows) (rs : List Request) (r : Request) :
    let before := History.after rows rs
    let later := before.ask r
    let committed := Event.committed? ⟨r, (before.db.step r).1⟩
    (committed = none → later.db.rows = before.db.rows) ∧
    (∀ tx, committed = some tx → ∀ key,
      RowChange (writes tx key before.log) (before.db.rows.get? key) (later.db.rows.get? key)) ∧
    (∀ key old, before.db.rows.get? key = some old → ∃ row, later.db.rows.get? key = some row ∧
      old.effectiveCount ≤ row.effectiveCount ∧
      (row.effectiveCount < UInt64.size → old.effectiveVersion ≤ row.effectiveVersion)) ∧
    (∀ key, (insertedUnder key later.log).length ≤ 1 ∧
      (rows.get? key ≠ none → insertedUnder key later.log = [])) := by
  intro before later committed
  have hinv : History.Invariant rows before := History.invariant_after rows rs
  have hdid : Did before.db ⟨r, (before.db.step r).1⟩ later.db := did_step before.db r
  refine ⟨hdid.rows_of_not_committed, fun tx hc key => ?_, fun key old hold => ?_, fun key => ?_⟩
  · exact hdid.rowChange hc fun t ht => hinv.tracks tx t key ht
  · obtain ⟨row, hrow, hprec⟩ := hinv.precedes hdid key old hold
    exact ⟨row, hrow, hprec.count_le, hprec.version_le⟩
  · rcases (hinv.ask r).once key with hnil | ⟨hone, hnone, -⟩
    · exact ⟨by simp [later, hnil], fun _ => hnil⟩
    · exact ⟨Nat.le_of_eq hone, fun hne => absurd hnone hne⟩

end Database

end GuardedWrites

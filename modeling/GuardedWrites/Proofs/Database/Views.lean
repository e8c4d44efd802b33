import GuardedWrites.Proofs.Database.Lifetime

/-!
# What an open transaction sees of a row

A transaction sees its own write to a row, or else what is committed at this moment. It reads from
no snapshot, so what it sees changes while it is open: by a write of its own, and by the commit of
another one that wrote the row. However it changes, a row that was seen stays there, and does not
move back.

* `Database.view?` — what a read of a row would give in a transaction;
* `Database.Touches` — the events that may change it;
* `Database.view?_step` — a request: the view stays, or it moves forward and the event is one of
  these.
-/

namespace GuardedWrites

open TransactionalStore (Request)

/-- A row that was there is still there, and has not moved back. -/
def Row.Forward (a b : Option Row) : Prop :=
  ∀ row, a = some row → ∃ row', b = some row' ∧ row.Precedes row'

namespace Row.Forward

variable {a b c : Option Row}

theorem trans (h : Forward a b) (k : Forward b c) : Forward a c := by
  intro row hrow
  obtain ⟨row', hrow', hle⟩ := h row hrow
  obtain ⟨row'', hrow'', hle'⟩ := k row' hrow'
  exact ⟨row'', hrow'', hle.trans hle'⟩

theorem none (b : Option Row) : Forward .none b := fun row h => by cases h

theorem apply (row : Row) (patch : Fields) : Forward (some row) (some (row.apply patch)) := by
  intro a ha
  obtain rfl := Option.some.inj ha
  exact ⟨_, rfl, .inr (Nat.lt_succ_self _)⟩

end Row.Forward

namespace OpenTransaction

variable {t : OpenTransaction} {rows : Rows} {r : Request} {n : Nat} {key k : RowKey}

/-- A row that is written is the one that is seen. -/
theorem fst_read_written {row : Row} (h : t.writes.get? key = some row) (rows : Rows) :
    (t.read rows key).1 = some row := by
  rw [fst_read, h, Option.some_or]

/-- What is seen depends on the writes and the committed row alone. -/
theorem fst_read_congr {t' : OpenTransaction} {rows' : Rows}
    (hw : t'.writes.get? key = t.writes.get? key) (hrows : rows'.get? key = rows.get? key) :
    (t'.read rows' key).1 = (t.read rows key).1 := by
  rw [fst_read, fst_read, hw, hrows]

/-- A read of any row is not seen. -/
theorem fst_read_after_read (t : OpenTransaction) (rows : Rows) (k key : RowKey) :
    ((t.read rows k).2.read rows key).1 = (t.read rows key).1 :=
  fst_read_congr (congrArg (·.get? key) (t.writes_read rows k)) rfl

/-- A write of another row is not seen. -/
theorem fst_read_write_of_ne (t : OpenTransaction) (rows : Rows) (row : Row) (h : k ≠ key) :
    (OpenTransaction.read { t with writes := t.writes.insert k row } rows key).1 =
      (t.read rows key).1 := by
  refine fst_read_congr ?_ rfl
  rw [Table.get?_insert, if_neg h]

/-- An insertion leaves what is seen of a row as it is, or there was no row and it writes one. -/
theorem insert_view (t : OpenTransaction) (rows : Rows) (n : Nat) (table : String) (row : Row)
    (key : RowKey) :
    ((t.insert rows table row).2.read rows key).1 = (t.read rows key).1 ∨
      Database.Event.write? n key ⟨.insert n table row, (t.insert rows table row).1⟩ ≠ none ∧
        Row.Forward (t.read rows key).1 ((t.insert rows table row).2.read rows key).1 := by
  have hlook := t.fst_read_after_read rows (table, row.id) key
  unfold insert
  cases hread : t.read rows (table, row.id) with
  | mk current t' =>
    rw [hread] at hlook
    cases current with
    | some old => exact .inl hlook
    | none =>
      by_cases hkey : (table, row.id) = key
      · subst hkey
        refine .inr ⟨by simp [Database.Event.write?], ?_⟩
        rw [hread]
        exact .none _
      · exact .inl ((t'.fst_read_write_of_ne rows row hkey).trans hlook)

/-- An update leaves what is seen of a row as it is, or it patches the row that was seen. -/
theorem update_view (t : OpenTransaction) (rows : Rows) (n : Nat) (table id : String)
    (patch : Fields) (expected : Option UInt64) (key : RowKey) :
    ((t.update rows (table, id) patch expected).2.read rows key).1 = (t.read rows key).1 ∨
      Database.Event.write? n key ⟨.update n table id patch expected,
        .ok (t.update rows (table, id) patch expected).1⟩ ≠
        none ∧
        Row.Forward (t.read rows key).1
          ((t.update rows (table, id) patch expected).2.read rows key).1 := by
  have hlook := t.fst_read_after_read rows (table, id) key
  unfold update
  cases hread : t.read rows (table, id) with
  | mk current t' =>
    rw [hread] at hlook
    cases current with
    | none => exact .inl hlook
    | some old =>
      by_cases hexpected : (expected.any fun e => decide (old.effectiveVersion ≠ e)) = true
      · simp only [hexpected, if_true]
        exact .inl hlook
      simp only [hexpected]
      by_cases hkey : (table, id) = key
      · subst hkey
        refine .inr ⟨by simp [Database.Event.write?], ?_⟩
        have hnew : (t'.writes.insert (table, id) (old.apply patch)).get? (table, id) =
            some (old.apply patch) := by
          rw [Table.get?_insert, if_pos rfl]
        rw [hread, fst_read_written hnew]
        exact .apply old patch
      · exact .inl ((t'.fst_read_write_of_ne rows (old.apply patch) hkey).trans hlook)

/-- Work leaves what is seen of a row as it is, or it writes the row and moves it forward. -/
theorem serve_view (t : OpenTransaction) (rows : Rows) (hr : r.works? = some (n, k))
    (key : RowKey) :
    ((t.serve rows r).2.read rows key).1 = (t.read rows key).1 ∨
      Database.Event.write? n key ⟨r, (t.serve rows r).1⟩ ≠ none ∧
        Row.Forward (t.read rows key).1 ((t.serve rows r).2.read rows key).1 := by
  cases r with
  | fetch m table id => exact .inl (t.fst_read_after_read rows (table, id) key)
  | insert m table row =>
    cases hr
    exact t.insert_view rows n table row key
  | update m table id patch expected =>
    cases hr
    exact t.update_view rows n table id patch expected key
  | begin c => cases hr
  | commit m => cases hr
  | rollback m => cases hr

end OpenTransaction

namespace Database

variable {rows : Rows} {s : History} {db' : Database} {e : Event} {r : Request} {n : Nat}
variable {key : RowKey}

/-- What a read of a row would give in a transaction; nothing if the transaction is not open. -/
def view? (db : Database) (n : Nat) (key : RowKey) : Option Row :=
  (db.opened.get? n).bind fun t => (t.read db.rows key).1

/-- An event that may change what a transaction sees of a row: it writes the row there, or it
commits another transaction that has written the row before. -/
def Touches (n : Nat) (key : RowKey) (e : Event) (earlier : List Event) : Prop :=
  e.write? n key ≠ none ∨ ∃ m ≠ n, e.committed? = some m ∧ writes m key earlier ≠ []

theorem view?_of_open {db : Database} {t : OpenTransaction} (ht : db.opened.get? n = some t)
    (key : RowKey) :
    db.view? n key = (t.read db.rows key).1 := by
  rw [view?, ht, Option.bind_some]

theorem view?_congr {db : Database} (hopened : db'.opened.get? n = db.opened.get? n)
    (hrows : db'.rows.get? key = db.rows.get? key) : db'.view? n key = db.view? n key := by
  rw [view?, view?, hopened]
  exact congrArg _ (funext fun t => OpenTransaction.fst_read_congr rfl hrows)

theorem RowChange.forward {ws : List Write} {old new : Option Row} (h : RowChange ws old new) :
    Row.Forward old new := by
  rintro row rfl
  exact h.precedes

/-- **One request.** As long as a transaction is open, what it sees of a row stays, or it moves
forward and the event is one that may change it. -/
theorem view?_step (h : History.Invariant rows s) (hlife : Life s.db e db') (hn : n < s.db.begun)
    (hopen : db'.opened.get? n ≠ none) :
    db'.view? n key = s.db.view? n key ∨
      Touches n key e s.log ∧ Row.Forward (s.db.view? n key) (db'.view? n key) := by
  -- the end of another transaction leaves this one open, and the end of this one does not
  have hother : ∀ m, (s.db.abandon m).opened.get? n ≠ none → m ≠ n ∧
      (s.db.abandon m).opened.get? n = s.db.opened.get? n := by
    intro m hm
    rw [abandon, Table.get?_erase] at hm ⊢
    by_cases hmn : m = n
    · rw [if_pos hmn] at hm
      exact absurd rfl hm
    · exact ⟨hmn, if_neg hmn⟩
  cases hlife with
  | begun c =>
    refine .inl (view?_congr ?_ rfl)
    rw [begin, Table.get?_insert, if_neg (Nat.ne_of_gt hn)]
  | refused r m hr hm => exact .inl rfl
  | worked r m k t hr ht =>
    by_cases hmn : m = n
    · subst hmn
      have hnew : (s.db.withOpen m (t.serve s.db.rows r).2).opened.get? m =
          some (t.serve s.db.rows r).2 := by
        rw [withOpen, Table.get?_insert, if_pos rfl]
      rw [view?_of_open hnew, view?_of_open ht]
      exact (t.serve_view s.db.rows hr key).imp_right fun hwrite => ⟨.inl hwrite.1, hwrite.2⟩
    · refine .inl (view?_congr ?_ rfl)
      rw [withOpen, Table.get?_insert, if_neg hmn]
  | committed m t ht hcurrent =>
    obtain ⟨hmn, hopened⟩ := hother m hopen
    have hchange : RowChange (writes m key s.log) (s.db.rows.get? key)
        ((t.writeTo s.db.rows).get? key) :=
      (h.tracks m t key ht).rowChange hcurrent
    by_cases hws : writes m key s.log = []
    · have hrows : (t.writeTo s.db.rows).get? key = s.db.rows.get? key := by
        rcases hchange with ⟨-, hrows⟩ | ⟨_, _, hne, -⟩
        · exact hrows
        · exact absurd hws hne
      exact .inl (view?_congr hopened hrows)
    obtain ⟨u, hu⟩ := Option.ne_none_iff_exists'.1 hopen
    have hold := view?_of_open (hopened.symm.trans hu) key
    have hnew : Database.view? _ n key = _ := view?_of_open hu key
    rw [hnew, hold]
    cases hown : u.writes.get? key with
    | some own =>
      exact .inl ((OpenTransaction.fst_read_written hown _).trans
        (OpenTransaction.fst_read_written hown _).symm)
    | none =>
      refine .inr ⟨.inr ⟨m, hmn, rfl, hws⟩, ?_⟩
      rw [OpenTransaction.fst_read, OpenTransaction.fst_read, hown]
      exact hchange.forward
  | failed m t ht hcurrent => exact .inl (view?_congr (hother m hopen).2 rfl)
  | rolledBack m t ht => exact .inl (view?_congr (hother m hopen).2 rfl)

/-- The answer to a read is what the transaction sees. -/
theorem view?_of_fetch {db : Database} {table id : String} {current : Option Row}
    (h : (db.step (.fetch n table id)).1 = .ok current) :
    db.opened.get? n ≠ none ∧ db.view? n (table, id) = current := by
  cases ht : db.opened.get? n with
  | none =>
    rw [step_of_not_open rfl ht] at h
    cases h
  | some t =>
    rw [step_of_works rfl ht] at h
    refine ⟨Option.some_ne_none t, ?_⟩
    rw [view?_of_open ht]
    exact Except.ok.inj h

/-- An update that affects no row does not see the version that it expects, and changes nothing that
the transaction sees. -/
theorem view?_of_unaffected {db : Database} {table id : String} {patch : Fields} {expected : UInt64}
    (key : RowKey) (h : (db.step (.update n table id patch (some expected))).1 = .ok (0 : Nat)) :
    (db.view? n (table, id)).map Row.effectiveVersion ≠ some expected ∧
      (db.step (.update n table id patch (some expected))).2.opened.get? n ≠ none ∧
      (db.step (.update n table id patch (some expected))).2.view? n key = db.view? n key := by
  cases ht : db.opened.get? n with
  | none =>
    rw [step_of_not_open rfl ht] at h
    cases h
  | some t =>
    rw [step_of_works rfl ht] at h ⊢
    have haffected : (t.update db.rows (table, id) patch (some expected)).1 = 0 := Except.ok.inj h
    have hnew :
        (db.withOpen n (t.update db.rows (table, id) patch (some expected)).2).opened.get? n =
        some (t.update db.rows (table, id) patch (some expected)).2 := by
      rw [withOpen, Table.get?_insert, if_pos rfl]
    refine ⟨fun hversion => ?_, Option.ne_none_iff_exists'.2 ⟨_, hnew⟩, ?_⟩
    · rw [view?_of_open ht] at hversion
      obtain ⟨row, hrow, hsame⟩ := Option.map_eq_some_iff.1 hversion
      unfold OpenTransaction.update at haffected
      cases hread : t.read db.rows (table, id) with
      | mk current t' =>
        rw [hread] at hrow
        obtain rfl : current = some row := hrow
        simp [hread, hsame] at haffected
    · have hold := view?_of_open ht key
      have hlater : Database.view? _ n key = _ := view?_of_open hnew key
      refine (hlater.trans ?_).trans hold.symm
      rcases t.update_view db.rows n table id patch (some expected) key with hsame | ⟨hwrite, -⟩
      · exact hsame
      · rw [haffected] at hwrite
        exact absurd (by simp [Event.write?]) hwrite

end Database

end GuardedWrites

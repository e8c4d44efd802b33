import GuardedWrites.Proofs.Database.LostUpdates

/-!
# The life of a transaction

A transaction is begun under the next free number, works while it is open, and is ended by a commit
or a rollback, whichever way that goes. No number is given out twice, and what has ended stays
ended.

* `Life` — everything that a request can do to a store, the one inversion of `Database.step`;
* `Closed.refuses` — a transaction that has ended refuses every request, and nothing changes;
* `History.closed_of_ended` — once its end was asked for, a transaction is closed for good;
* `History.begins_after` — the numbers are given out one after another.
-/

namespace GuardedWrites

open TransactionalStore (Request Result)

namespace TransactionalStore.Request

/-- The transaction that a request works in, and the row that it is about. -/
def works? : Request → Option (Nat × RowKey)
  | .fetch n table id => some (n, (table, id))
  | .insert n table row => some (n, (table, row.id))
  | .update n table id _ _ => some (n, (table, id))
  | _ => none

/-- The transaction that a request is to end. -/
def ends? : Request → Option Nat
  | .commit n => some n
  | .rollback n => some n
  | _ => none

/-- The transaction that a request is made to. -/
def tx? (r : Request) : Option Nat := (r.works?.map Prod.fst).or r.ends?

theorem tx?_of_works {r : Request} {n : Nat} {key : RowKey} (h : r.works? = some (n, key)) :
    r.tx? = some n := by
  simp [tx?, h]

theorem tx?_of_ends {r : Request} {n : Nat} (h : r.ends? = some n) : r.tx? = some n := by
  cases r <;> simp_all [tx?, ends?, works?]

end TransactionalStore.Request

namespace OpenTransaction

/-- The work of a request in a transaction, given the committed rows. -/
def serve (t : OpenTransaction) (rows : Rows) :
    (r : Request) → Except StoreError (Result r) × OpenTransaction
  | .fetch _ table id => (.ok (t.read rows (table, id)).1, (t.read rows (table, id)).2)
  | .insert _ table row => t.insert rows table row
  | .update _ table id patch expected =>
    (.ok (t.update rows (table, id) patch expected).1, (t.update rows (table, id) patch expected).2)
  | _ => (.error .finished, t)

variable {t : OpenTransaction} {rows rows' : Rows} {r : Request} {n : Nat} {key : RowKey}

theorem read_congr (h : t.writes.get? key = none → rows.get? key = rows'.get? key) :
    t.read rows key = t.read rows' key := by
  unfold read Rows.count?
  cases hw : t.writes.get? key with
  | some row => rfl
  | none => rw [h hw]

/-- Work looks at no committed row but the one that it is about, and at that one only if the
transaction has not written it. -/
theorem serve_congr (hr : r.works? = some (n, key))
    (h : t.writes.get? key = none → rows.get? key = rows'.get? key) :
    t.serve rows r = t.serve rows' r := by
  have hread := read_congr h
  cases r with
  | fetch m table id =>
    cases hr
    simp only [serve, hread]
  | insert m table row =>
    cases hr
    simp only [serve, OpenTransaction.insert, hread]
  | update m table id patch expected =>
    cases hr
    simp only [serve, OpenTransaction.update, hread]
  | begin c => cases hr
  | commit m => cases hr
  | rollback m => cases hr

/-- What is remembered after work is what is remembered after a read of the row. -/
theorem base_serve (hr : r.works? = some (n, key)) :
    (t.serve rows r).2.base = (t.read rows key).2.base := by
  cases r with
  | fetch m table id =>
    cases hr
    rfl
  | insert m table row =>
    cases hr
    simp only [serve, OpenTransaction.insert]
    split <;> simp [*]
  | update m table id patch expected =>
    cases hr
    simp only [serve, OpenTransaction.update]
    split
    · simp [*]
    · split <;> simp [*]
  | begin c => cases hr
  | commit m => cases hr
  | rollback m => cases hr

/-- What is remembered stays remembered. -/
theorem base_serve_of_some {v : Option Nat} {k : RowKey} (hr : r.works? = some (n, key))
    (h : t.base.get? k = some v) : (t.serve rows r).2.base.get? k = some v := by
  rw [base_serve hr, base_read, if_neg]
  · exact h
  · rintro ⟨rfl, -, hnone⟩
    simp [h] at hnone

/-- Work is never refused. -/
theorem serve_ne_finished (rows : Rows) (hr : r.works? = some (n, key)) :
    (t.serve rows r).1 ≠ .error .finished := by
  cases r with
  | fetch m table id => simp [serve]
  | insert m table row =>
    simp only [serve, OpenTransaction.insert]
    split <;> simp [StoreError.uniqueViolation, StoreError.finished]
  | update m table id patch expected => simp [serve]
  | begin c => cases hr
  | commit m => cases hr
  | rollback m => cases hr

end OpenTransaction

namespace Database

variable {db db' : Database} {e : Event} {r : Request} {n : Nat} {key : RowKey}

/-- Everything that a request can do, told by its event: it begins a transaction, it is refused
because its transaction is not open, it works, it commits, its commit fails, or it rolls back. -/
inductive Life (db : Database) : Event → Database → Prop where
  | begun (c : TransactionContext) : Life db ⟨.begin c, .ok db.begun⟩ (db.begin c.isolation).2
  | refused (r : Request) (n : Nat) (hr : r.tx? = some n) (hn : db.opened.get? n = none) :
    Life db ⟨r, .error .finished⟩ db
  | worked (r : Request) (n : Nat) (key : RowKey) (t : OpenTransaction)
    (hr : r.works? = some (n, key)) (ht : db.opened.get? n = some t) :
    Life db ⟨r, (t.serve db.rows r).1⟩ (db.withOpen n (t.serve db.rows r).2)
  | committed (n : Nat) (t : OpenTransaction) (ht : db.opened.get? n = some t)
    (hcurrent : t.isCurrent db.rows = true) :
    Life db ⟨.commit n, .ok ()⟩
      { db.abandon n with rows := t.writeTo db.rows, commits := db.commits + 1 }
  | failed (n : Nat) (t : OpenTransaction) (ht : db.opened.get? n = some t)
    (hcurrent : ¬ t.isCurrent db.rows = true) :
    Life db ⟨.commit n, .error .serializationFailure⟩
      { db.abandon n with rollbacks := db.rollbacks + 1 }
  | rolledBack (n : Nat) (t : OpenTransaction) (ht : db.opened.get? n = some t) :
    Life db ⟨.rollback n, .ok ()⟩ { db.abandon n with rollbacks := db.rollbacks + 1 }

theorem step_of_works {t : OpenTransaction} (hr : r.works? = some (n, key))
    (ht : db.opened.get? n = some t) :
    db.step r = ((t.serve db.rows r).1, db.withOpen n (t.serve db.rows r).2) := by
  cases r with
  | fetch m table id =>
    cases hr
    simp only [step, ht]
    rfl
  | insert m table row =>
    cases hr
    simp only [step, ht]
    rfl
  | update m table id patch expected =>
    cases hr
    simp only [step, ht]
    rfl
  | begin c => cases hr
  | commit m => cases hr
  | rollback m => cases hr

/-- A request to a transaction that is not open is refused, and nothing changes. -/
theorem step_of_not_open (hr : r.tx? = some n) (hn : db.opened.get? n = none) :
    db.step r = (.error .finished, db) := by
  cases r with
  | begin c => cases hr
  | _ =>
    cases hr
    simp only [step, hn]

theorem life_step (db : Database) (r : Request) : Life db ⟨r, (db.step r).1⟩ (db.step r).2 := by
  have hworks : ∀ n key, r.works? = some (n, key) → Life db ⟨r, (db.step r).1⟩ (db.step r).2 := by
    intro n key hr
    cases ht : db.opened.get? n with
    | none =>
      rw [step_of_not_open (Request.tx?_of_works hr) ht]
      exact .refused r n (Request.tx?_of_works hr) ht
    | some t =>
      rw [step_of_works hr ht]
      exact .worked r n key t hr ht
  cases r with
  | begin c => exact .begun c
  | fetch n table id => exact hworks n (table, id) rfl
  | insert n table row => exact hworks n (table, row.id) rfl
  | update n table id patch expected => exact hworks n (table, id) rfl
  | commit n =>
    cases ht : db.opened.get? n with
    | none =>
      rw [step_of_not_open rfl ht]
      exact .refused _ n rfl ht
    | some t =>
      simp only [step, ht]
      by_cases hcurrent : t.isCurrent db.rows = true
      · rw [commit_of_isCurrent db n hcurrent]
        exact .committed n t ht hcurrent
      · rw [commit_of_not_isCurrent db n hcurrent]
        exact .failed n t ht hcurrent
  | rollback n =>
    cases ht : db.opened.get? n with
    | none =>
      rw [step_of_not_open rfl ht]
      exact .refused _ n rfl ht
    | some t =>
      simp only [step, ht]
      exact .rolledBack n t ht

/-- The transaction that an event began. -/
def Event.begun? : Event → Option Nat
  | ⟨.begin _, .ok n⟩ => some n
  | _ => none

/-- A request that neither begins a transaction nor is made to it leaves it as it is. -/
theorem Life.opened_of_ne (h : Life db e db') (hbegun : e.begun? ≠ some n)
    (htx : e.request.tx? ≠ some n) :
    db'.opened.get? n = db.opened.get? n := by
  cases h with
  | begun c =>
    have hne : ¬ db.begun = n := fun hn => hbegun (congrArg some hn)
    simp only [begin, Table.get?_insert, if_neg hne]
  | refused r m hr hm => rfl
  | worked r m key t hr ht =>
    have hne : ¬ m = n := fun hm => htx (hm ▸ Request.tx?_of_works hr)
    simp only [withOpen, Table.get?_insert, if_neg hne]
  | committed m t ht hcurrent =>
    have hne : ¬ m = n := fun hm => htx (congrArg some hm)
    simp only [abandon, Table.get?_erase, if_neg hne]
  | failed m t ht hcurrent =>
    have hne : ¬ m = n := fun hm => htx (congrArg some hm)
    simp only [abandon, Table.get?_erase, if_neg hne]
  | rolledBack m t ht =>
    have hne : ¬ m = n := fun hm => htx (congrArg some hm)
    simp only [abandon, Table.get?_erase, if_neg hne]

/-- Who writes in a transaction makes a request to it. -/
theorem tx?_of_write? {w : Write} (h : e.write? n key = some w) : e.request.tx? = some n := by
  obtain ⟨r, x⟩ := e
  cases r with
  | insert m table row =>
    cases x with
    | error e => cases h
    | ok u =>
      simp only [Event.write?] at h
      split at h
      · rename_i hm
        obtain ⟨rfl, -⟩ := hm
        rfl
      · cases h
  | update m table id patch expected =>
    cases x with
    | error e => cases h
    | ok affected =>
      simp only [Event.write?] at h
      split at h
      · rename_i hm
        obtain ⟨rfl, -⟩ := hm
        rfl
      · cases h
  | _ => cases h

theorem writes_cons_of_ne (h : e.request.tx? ≠ some n) (log : List Event) :
    writes n key (e :: log) = writes n key log := by
  refine History.writes_cons_of_none ?_ log
  cases hw : e.write? n key with
  | none => rfl
  | some w => exact absurd (tx?_of_write? hw) h

/-! ### What has ended stays ended -/

/-- A transaction that was begun and is no longer open. -/
def Closed (db : Database) (n : Nat) : Prop := n < db.begun ∧ db.opened.get? n = none

theorem Closed.refuses (h : Closed db n) (hr : r.tx? = some n) :
    db.step r = (.error .finished, db) :=
  step_of_not_open hr h.2

theorem Closed.abandon (h : Closed db n) (m : Nat) : (db.abandon m).opened.get? n = none := by
  rw [Database.abandon, Table.get?_erase, h.2, ite_self]

theorem closed_abandon (hn : n < db.begun) :
    n < (db.abandon n).begun ∧ (db.abandon n).opened.get? n = none :=
  ⟨hn, by simp [Database.abandon, Table.get?_erase]⟩

/-- Numbers are only given out. -/
theorem Life.begun_le (h : Life db e db') : db.begun ≤ db'.begun := by
  cases h with
  | begun c => exact Nat.le_succ _
  | _ => exact Nat.le_refl _

theorem Life.closed (h : Life db e db') (hn : Closed db n) : Closed db' n := by
  cases h with
  | begun c =>
    refine ⟨Nat.lt_succ_of_lt hn.1, ?_⟩
    simp only [begin, Table.get?_insert]
    rw [if_neg (Nat.ne_of_gt hn.1), hn.2]
  | refused r m hr hm => exact hn
  | worked r m key t hr ht =>
    refine ⟨hn.1, ?_⟩
    simp only [withOpen, Table.get?_insert]
    rw [if_neg, hn.2]
    rintro rfl
    simp [hn.2] at ht
  | committed m t ht hcurrent => exact ⟨hn.1, hn.abandon m⟩
  | failed m t ht hcurrent => exact ⟨hn.1, hn.abandon m⟩
  | rolledBack m t ht => exact ⟨hn.1, hn.abandon m⟩

/-- The end of a transaction that was begun closes it, whatever the answer. -/
theorem Life.closed_of_ends (h : Life db e db') (he : e.request.ends? = some n)
    (hn : n < db.begun) :
    Closed db' n := by
  cases h with
  | begun c => cases he
  | refused r m hr hm =>
    rw [Request.tx?_of_ends he, Option.some.injEq] at hr
    exact ⟨hn, hr ▸ hm⟩
  | worked r m key t hr ht =>
    have hends : r.ends? = none := by cases r <;> first | rfl | cases hr
    simp [hends] at he
  | committed m t ht hcurrent =>
    cases he
    exact closed_abandon hn
  | failed m t ht hcurrent =>
    cases he
    exact closed_abandon hn
  | rolledBack m t ht =>
    cases he
    exact closed_abandon hn

/-! ### Numbers -/

/-- The numbers that were given out, the latest first. -/
def begins (log : List Event) : List Nat := log.filterMap Event.begun?

/-- The end of a transaction was asked for after it was begun. -/
def Ended (n : Nat) : List Event → Prop
  | [] => False
  | e :: earlier => e.request.ends? = some n ∧ n ∈ begins earlier ∨ Ended n earlier

theorem Ended.append {log : List Event} (h : Ended n log) (later : List Event) :
    Ended n (later ++ log) := by
  induction later with
  | nil => exact h
  | cons e later ih => exact .inr ih

theorem Life.begins (h : Life db e db') (log : List Event)
    (hlog : begins log = (List.range db.begun).reverse) :
    Database.begins (e :: log) = (List.range db'.begun).reverse := by
  have hnone : e.begun? = none → Database.begins (e :: log) = (List.range db.begun).reverse := by
    intro he
    rw [← hlog]
    simp [Database.begins, he]
  cases h with
  | begun c =>
    have hbegins : Database.begins (⟨.begin c, .ok db.begun⟩ :: log) = db.begun ::
        Database.begins log := rfl
    rw [hbegins, hlog, begin, List.range_succ, List.reverse_append]
    rfl
  | refused r m hr hm => exact hnone (by cases r <;> rfl)
  | worked r m key t hr ht => exact hnone (by cases r <;> rfl)
  | committed m t ht hcurrent => exact hnone rfl
  | failed m t ht hcurrent => exact hnone rfl
  | rolledBack m t ht => exact hnone rfl

namespace History

theorem after_append (rows : Rows) (rs rs' : List Request) :
    after rows (rs ++ rs') = rs'.foldl ask (after rows rs) := List.foldl_append

theorem after_concat (rows : Rows) (rs : List Request) (r : Request) :
    after rows (rs ++ [r]) = (after rows rs).ask r := after_append rows rs [r]

/-- What holds at the start and is kept by every request holds of every history. -/
theorem after_induction {rows : Rows} {P : History → Prop} (hopening : P (opening rows))
    (hask : ∀ rs r, P (after rows rs) → P ((after rows rs).ask r)) (rs : List Request) :
    P (after rows rs) := by
  have hfrom : ∀ later earlier, P (after rows earlier) → P (after rows (earlier ++ later)) := by
    intro later
    induction later with
    | nil => simp
    | cons r later ih =>
      intro earlier h
      rw [List.append_cons]
      refine ih _ ?_
      rw [after_concat]
      exact hask earlier r h
  exact hfrom rs [] hopening

theorem begins_after (rows : Rows) (rs : List Request) :
    begins (after rows rs).log = (List.range (after rows rs).db.begun).reverse :=
  after_induction (P := fun s => begins s.log = (List.range s.db.begun).reverse) rfl
    (fun _ r ih => (life_step _ r).begins _ ih) rs

theorem mem_begins_after {rows : Rows} {rs : List Request} :
    n ∈ begins (after rows rs).log ↔ n < (after rows rs).db.begun := by
  rw [begins_after, List.mem_reverse, List.mem_range]

theorem closed_of_ended (rows : Rows) (rs : List Request) (n : Nat) :
    Ended n (after rows rs).log → Closed (after rows rs).db n := by
  refine after_induction (P := fun s => Ended n s.log → Closed s.db n) (fun h => absurd h id) ?_ rs
  intro rs r ih h
  rcases h with ⟨he, hn⟩ | h
  · exact (life_step _ r).closed_of_ends he (mem_begins_after.1 hn)
  · exact (life_step _ r).closed (ih h)

end History

end Database

end GuardedWrites

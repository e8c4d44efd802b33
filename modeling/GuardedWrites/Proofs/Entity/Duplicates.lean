import GuardedWrites.Entity.Room
import GuardedWrites.Entity.Store
import GuardedWrites.Proofs.Transaction.Conflicts
import GuardedWrites.Proofs.Transaction.Runs

/-!
# Creating what is there already

The insert of a creation under an id that is taken is refused with a unique violation, and the
attempt is rolled back. Whether the run tries again is up to the classifier, which finds the table
and the id in the message of that error.

* `Database.RolledBack`, `Shared.RolledBack` — some transactions were begun and rolled back, and
  nothing else is different;
* `EntityStore.attempt_taken`, `EntityStore.create_taken` — an attempt, and the run with any
  classifier;
* `EntityStore.create_duplicate` — the run with the usual classifier.
-/

namespace GuardedWrites

open Shared

variable {W : Service} {α : Type} [Entity α]

/-! ### Transactions that are rolled back -/

namespace Database

/-- That many transactions were begun and rolled back, one after the other, and nothing else is
different. -/
structure RolledBack (k : Nat) (db db' : Database) : Prop where
  rows : db'.rows = db.rows
  commits : db'.commits = db.commits
  begun : db'.begun = db.begun + k
  rollbacks : db'.rollbacks = db.rollbacks + k
  opened : ∀ n, db'.opened.get? n =
    if db.begun ≤ n ∧ n < db.begun + k then none else db.opened.get? n

theorem RolledBack.trans {j k : Nat} {db db' db'' : Database} (h : RolledBack j db db')
    (h' : RolledBack k db' db'') :
    RolledBack (j + k) db db'' where
  rows := h'.rows.trans h.rows
  commits := h'.commits.trans h.commits
  begun := by rw [h'.begun, h.begun, Nat.add_assoc]
  rollbacks := by rw [h'.rollbacks, h.rollbacks, Nat.add_assoc]
  opened n := by
    rw [h'.opened, h.opened, h.begun]
    by_cases hlate : db.begun + j ≤ n ∧ n < db.begun + j + k
    · rw [if_pos hlate, if_pos (by omega)]
    · have hearly : (db.begun ≤ n ∧ n < db.begun + (j + k)) ↔
          (db.begun ≤ n ∧ n < db.begun + j) := by
        omega
      simp only [if_neg hlate, hearly]

variable {db : Database} {table : String} {row : Row}

/-- An insert under a key that is taken is refused, and the transaction stays open. -/
theorem step_insert_taken {tx : Nat} {t : OpenTransaction} (ht : db.opened.get? tx = some t)
    (htaken : (db.rows.get? (table, row.id)).isSome = true) :
    ∃ t', db.step (.insert tx table row) =
      (.error (.uniqueViolation (table ++ ".id = " ++ row.id)), db.withOpen tx t') := by
  obtain ⟨old, hold⟩ := Option.isSome_iff_exists.1 htaken
  simp only [step, ht, OpenTransaction.insert, OpenTransaction.read]
  cases t.writes.get? (table, row.id) with
  | some mine => exact ⟨_, rfl⟩
  | none => simp only [hold]; exact ⟨_, rfl⟩

/-- An attempt at such an insert is rolled back. -/
theorem rolledBack_insert_taken (table : String) (c : TransactionContext)
    (htaken : (db.rows.get? (table, row.id)).isSome = true) :
    let db₁ := (db.step (.begin c)).2
    let x := db₁.step (.insert db.begun table row)
    x.1 = .error (.uniqueViolation (table ++ ".id = " ++ row.id)) ∧
      RolledBack 1 db (x.2.step (.rollback db.begun)).2 := by
  intro db₁ x
  have hopen : db₁.opened.get? db.begun = some (.new c.isolation) := by
    show (db.opened.insert db.begun (.new c.isolation)).get? db.begun = _
    rw [Table.get?_insert, if_pos rfl]
  obtain ⟨t, hx⟩ : ∃ t, x = (.error (.uniqueViolation (table ++ ".id = " ++ row.id)),
    db₁.withOpen db.begun t) :=
    step_insert_taken hopen htaken
  have hopen' : (db₁.withOpen db.begun t).opened.get? db.begun = some t := by
    rw [withOpen, Table.get?_insert, if_pos rfl]
  rw [hx]
  refine ⟨rfl, ?_⟩
  simp only [step, hopen']
  refine ⟨rfl, rfl, rfl, rfl, fun n => ?_⟩
  show (((db.opened.insert db.begun (.new c.isolation)).insert db.begun t).erase
    db.begun).get? n = _
  simp only [Table.get?_erase, Table.get?_insert]
  by_cases hn : db.begun = n
  · rw [if_pos hn, if_pos (by omega)]
  · rw [if_neg hn, if_neg hn, if_neg hn, if_neg (by omega)]

end Database

namespace Shared

/-- On one of the databases that many transactions were begun and rolled back, and nothing else is
different. -/
structure RolledBack (i k : Nat) (s s' : Shared) : Prop where
  records : s'.records = s.records
  others : ∀ j, j ≠ i → s'.databases j = s.databases j
  there : (s.databases i).RolledBack k (s'.databases i)

theorem RolledBack.trans {i j k : Nat} {s s' s'' : Shared} (h : RolledBack i j s s')
    (h' : RolledBack i k s' s'') :
    RolledBack i (j + k) s s'' where
  records := h'.records.trans h.records
  others n hn := (h'.others n hn).trans (h.others n hn)
  there := h.there.trans h'.there

end Shared

/-! ### Creations -/

namespace EntityStore

variable {R : Runner (Action W)} {a : α} {row : Row} {home : Nat → Nat} {o : Circumstances W}
variable {s : Shared} {scope : Scope}

/-- What a creation tells, given the answer to the insert. -/
def created (row : Row) : Except StoreError Unit → Except Failure (Versioned α)
  | .error e => .error (.store e)
  | .ok () => Entity.decode row

theorem createWork_eq (hR : Discreet R) (row : Row) (h : Handle) (scope : Scope) :
    createWork α R row h scope =
      .call (.database R.store (.insert h.tx (Entity.table α) row)) fun x =>
        .done (created row x) := by
  have hinsert := hR.asks (.insert h.tx (Entity.table α) row) scope
  unfold createWork Runner.insert
  simp only [bind, ReaderT.bind]
  rw [hinsert]
  refine congrArg (Program.call (S := service W) _) (funext fun x => ?_)
  rcases x with e | u <;> rfl

theorem id_of_encode (h : Entity.encode a = .ok row) : row.id = Entity.id a := by
  unfold Entity.encode at h
  cases hfields : Entity.members (Entity.toJson a) with
  | error f =>
    rw [hfields] at h
    cases h
  | ok fs =>
    rw [hfields] at h
    simp only [bind, Except.bind] at h
    split at h <;> cases h
    rfl

/-- The error of a creation under an id that is taken. -/
abbrev taken (α : Type) [Entity α] (id : String) : StoreError :=
  .uniqueViolation (Entity.table α ++ ".id = " ++ id)

/-- A creation was refused, after so many attempts. -/
def Refused (α : Type) [Entity α] (i : Nat) (id : String) (tries : Nat) (s : Shared)
    (r : Except Failure (Versioned α)) (s' : Shared) : Prop :=
  r = .error (.store (taken α id)) ∧ RolledBack i tries s s'

/-- **An attempt** is refused and rolled back. -/
theorem attempt_taken (hR : Discreet R) (c : TransactionContext)
    (htaken : ((s.databases (home R.store)).rows.get? (Entity.table α, row.id)).isSome = true) :
    (R.attempt c (createWork α R row) scope).Yields (step home o) s
      (Refused α (home R.store) row.id 1 s) := by
  obtain ⟨hreply, hback⟩ := Database.rolledBack_insert_taken (Entity.table α) c htaken
  let h : Handle := ⟨R.store, (s.databases (home R.store)).begun, c⟩
  rw [Runs.attempt_eq hR]
  refine .call ?_
  show ((createWork α R row h (some h)).bind (Runs.finish h)).Yields (step home o) _ _
  rw [createWork_eq hR]
  refine .call ?_
  show (Runs.finish h (created row
    (((step home o (.database R.store (.begin c)) s).2.databases (home R.store)).step
    (.insert h.tx (Entity.table α) row)).1)).Yields (step home o) _ _
  rw [databases_database, hreply]
  refine .call (.done ⟨rfl, rfl, fun j hj => ?_, ?_⟩)
  · have hbegin := databases_database_of_ne (o := o) (s := s) R.store (.begin c) hj
    exact (databases_database_of_ne _ _ hj).trans ((databases_database_of_ne _ _ hj).trans hbegin)
  · rw [databases_database, databases_database, databases_database]
    exact hback

/-- **The run**, with any classifier: one attempt, or as many as there may be. -/
theorem create_taken (hR : Discreet R)
    (hobserve : ∀ a b, (R.observe a b scope).Ends (fun _ => False) fun _ => True)
    (halone : Provenance.joins R scope = false) (hrow : Entity.encode a = .ok row)
    (htaken : ((s.databases (home R.store)).rows.get? (Entity.table α, Entity.id a)).isSome =
      true) :
    (create R a scope).Yields (step home o) s (Refused α (home R.store) (Entity.id a)
      (if R.classify (taken α (Entity.id a)) = .retryable
        then RunSpec.defaultMaxAttempts else 1) s) := by
  rw [← id_of_encode hrow] at htaken ⊢
  unfold create
  rw [hrow]
  let spec := spec α "create" .readCommitted false
  let again := R.classify (taken α row.id) = .retryable
  have hfatal : R.classOf (Failure.store (taken α row.id)) = .fatal ↔ ¬ again := by
    show R.classify _ = .fatal ↔ ¬ R.classify _ = .retryable
    cases R.classify (taken α row.id) <;> decide
  have hfinal :
      ∀ n, Runs.Final R spec n (.error (.store (taken α row.id)) : Except Failure (Versioned α)) ↔
      ¬ again ∨ n = spec.budget :=
    fun n => or_congr (Runs.classOf_eq_fatal_iff.symm.trans hfatal) Iff.rfl
  refine Runs.run_yields
    (G := fun n s => n ≤ spec.budget ∧
      ((s.databases (home R.store)).rows.get? (Entity.table α, row.id)).isSome = true)
    (T := fun _ s => Refused α (home R.store) row.id 1 s)
    (Q := fun n s => Refused α (home R.store) row.id (if again then spec.budget + 1 - n else 1) s)
    halone hobserve (fun n s hs => attempt_taken hR _ hs.2) ?_ ?_ ⟨Nat.le_max_right _ _, htaken⟩
  · rintro n s r s' - ⟨rfl, hback⟩ hlast
    refine ⟨rfl, ?_⟩
    rcases (hfinal n).1 hlast with hagain | hn
    · rwa [if_neg hagain]
    · rwa [hn, Nat.add_sub_cancel_left, ite_self]
  · rintro n s e s' ⟨hn, hthere⟩ ⟨he, hback⟩ hlast
    cases he
    obtain ⟨hagain, hne⟩ : again ∧ n ≠ spec.budget := by
      simpa only [not_or, Decidable.not_not] using mt (hfinal n).2 hlast
    have hleft : spec.budget + 1 - n = 1 + (spec.budget + 1 - (n + 1)) := by omega
    refine ⟨⟨by omega, by rwa [hback.there.rows]⟩, ?_⟩
    rintro r s'' ⟨rfl, hback'⟩
    rw [if_pos hagain] at hback'
    rw [if_pos hagain, hleft]
    exact ⟨rfl, hback.trans hback'⟩

/-- Creating an entity whose id is taken, by a runner with the usual classifier, outside any
transaction on its store and with nobody else at work. The result is the unique violation, and all
that happens to the database is that attempts at it are begun and rolled back. There is one of them,
unless the name of the table or the id holds a fragment that tells of a conflict: then the error is
taken for one, and there are as many as there may be. -/
theorem create_duplicate (hR : Discreet R)
    (hobserve : ∀ a b, (R.observe a b scope).Ends (fun _ => False) fun _ => True)
    (hclassify : R.classify = Conflict.classify) (halone : Provenance.joins R scope = false)
    (hrow : Entity.encode a = .ok row)
    (htaken : ((s.databases (home R.store)).rows.get? (Entity.table α, Entity.id a)).isSome =
      true) :
    (create R a scope).Yields (step home o) s fun r s' =>
      r = .error (.store (.uniqueViolation (Entity.table α ++ ".id = " ++ Entity.id a))) ∧
        RolledBack (home R.store)
          (if Conflict.tells (Entity.table α) = true ∨ Conflict.tells (Entity.id a) = true
            then 3 else 1) s s' := by
  have h := create_taken (o := o) hR hobserve halone hrow htaken
  simp only [hclassify, taken, Conflict.classify_uniqueViolation_iff] at h
  exact h

/-- A runner with the usual classifier, whose observer asks nothing. -/
def usual : Runner (Action Nothing) where
  store := 0
  ask r _ := .ask (S := service Nothing) (.database 0 r)
  classify := Conflict.classify
  backoff := ⟨.ofMillis 25, .ofSecs 1, 0⟩
  draw _ := 0
  observe _ _ _ := .done ()

theorem discreet_usual : Discreet usual := ⟨fun _ _ => rfl, fun _ _ _ => trivial⟩

theorem alone_usual : Provenance.joins usual none = false := rfl

/-- A room with an id. -/
def dorm (id : String) : Room := ⟨id, "Dorm", 8, 1800, .available⟩

/-- A process whose only room is that one. -/
def furnished (id : String) : Shared :=
  ⟨fun _ => Database.empty.seed (Entity.table Room) (.new id []), .empty 4⟩

theorem taken_furnished (id : String) :
    (((furnished id).databases 0).rows.get? (Entity.table Room, Entity.id (dorm id))).isSome =
      true := by
  show ((Table.insert .empty (Entity.table Room, id) (Row.new id [])).get?
    (Entity.table Room, id)).isSome = true
  rw [Table.get?_insert, if_pos rfl]
  rfl

/-- The room with an ordinary id is tried once. -/
theorem create_duplicate_dorm :
    let s := furnished "dorm-8"
    Discreet usual ∧ usual.classify = Conflict.classify ∧ Provenance.joins usual none = false ∧
      (∃ row, Entity.encode (dorm "dorm-8") = .ok row) ∧
      ((s.databases 0).rows.get? (Entity.table Room, Entity.id (dorm "dorm-8"))).isSome = true ∧
      (create usual (dorm "dorm-8") none).Yields (step id epoch) s fun r s' =>
        r = .error (.store (.uniqueViolation "rooms.id = dorm-8")) ∧ RolledBack 0 1 s s' := by
  intro s
  obtain ⟨row, hrow⟩ : ∃ row, Entity.encode (dorm "dorm-8") = .ok row := ⟨_, rfl⟩
  have hthere := taken_furnished "dorm-8"
  have h : (create usual (dorm "dorm-8") none).Yields (step id epoch) s _ :=
    create_duplicate discreet_usual (fun _ _ => trivial) rfl alone_usual hrow hthere
  rw [if_neg (by decide)] at h
  exact ⟨discreet_usual, rfl, alone_usual, ⟨row, hrow⟩, hthere, h⟩

/-- Not every room is: one whose id is a fragment is tried three times. -/
theorem create_retries_deadlock :
    ¬ ∀ (a : Room) (row : Row) (s : Shared), Entity.encode a = .ok row →
      ((s.databases 0).rows.get? (Entity.table Room, Entity.id a)).isSome = true →
      (create usual a none).Yields (step id epoch) s fun r s' =>
        r = .error (.store (.uniqueViolation (Entity.table Room ++ ".id = " ++ Entity.id a))) ∧
          RolledBack 0 1 s s' := by
  intro honce
  obtain ⟨row, hrow⟩ : ∃ row, Entity.encode (dorm "deadlock") = .ok row := ⟨_, rfl⟩
  have hthere := taken_furnished "deadlock"
  have hagain : usual.classify (taken Room (Entity.id (dorm "deadlock"))) = .retryable :=
    (Conflict.classify_uniqueViolation_iff (Entity.table Room) "deadlock").2 (.inr (by decide))
  have hthrice : (create usual (dorm "deadlock") none).Yields (step id epoch)
      (furnished "deadlock") _ :=
    create_taken discreet_usual (fun _ _ => trivial) alone_usual hrow hthere
  rw [if_pos hagain] at hthrice
  obtain ⟨r, s', n, hrun, -, hone⟩ :=
    honce (dorm "deadlock") row (furnished "deadlock") hrow hthere 0
  obtain ⟨r', s'', n', hrun', -, hthree⟩ := hthrice 0
  cases hrun.symm.trans hrun'
  have hbegun := hone.there.begun.symm.trans hthree.there.begun
  exact absurd hbegun (by decide)

end EntityStore

end GuardedWrites

import GuardedWrites.Database.Transaction
import GuardedWrites.Effect.Program

/-!
# The relational store

`TransactionalStore` is the service that transactions run on. `Database` is such a store in process:
the first of two transactions that wrote the same row commits, and the other fails with a
serialization failure. A transaction that has ended, in whichever way, can no longer be used.

* `Database.seed`, `Database.get?`, `Database.rowCount` — the committed rows, outside any
  transaction;
* `Database.step` — the requests of transactions;
* `Database.abandon` — a transaction that is forgotten, neither committed nor rolled back.
-/

namespace GuardedWrites

namespace TransactionalStore

/-- What can be asked of a transactional store. -/
inductive Request where
  | begin (context : TransactionContext)
  | fetch (tx : Nat) (table id : String)
  | insert (tx : Nat) (table : String) (row : Row)
  | update (tx : Nat) (table id : String) (patch : Fields) (expected : Option UInt64)
  | commit (tx : Nat)
  | rollback (tx : Nat)

/-- What a successful answer holds. -/
abbrev Result : Request → Type
  | .begin _ => Nat
  | .fetch _ _ _ => Option Row
  | .insert _ _ _ => Unit
  | .update _ _ _ _ _ => Nat
  | .commit _ => Unit
  | .rollback _ => Unit

/-- The transactional store as a service. -/
abbrev service : Service := ⟨Request, fun r => Except StoreError (Result r)⟩

end TransactionalStore

/-- Committed rows, open transactions by number, and how many were committed and rolled back. -/
structure Database where
  rows : Rows
  opened : Table Nat OpenTransaction
  begun : Nat
  commits : Nat
  rollbacks : Nat

namespace Database

/-- A store without rows. -/
def empty : Database := ⟨.empty, .empty, 0, 0, 0⟩

/-- Writes a row outside any transaction. -/
def seed (db : Database) (table : String) (row : Row) : Database :=
  { db with rows := db.rows.insert (table, row.id) row }

/-- A committed row. -/
def get? (db : Database) (table id : String) : Option Row := db.rows.get? (table, id)

/-- The number of committed rows of a table. -/
def rowCount (db : Database) (table : String) : Nat :=
  (db.rows.entries.filter fun e => e.1.1 == table).length

/-- Begins a transaction. -/
def begin (db : Database) (isolation : IsolationLevel) : Nat × Database :=
  (db.begun,
    { db with opened := db.opened.insert db.begun (.new isolation), begun := db.begun + 1 })

/-- Puts back an open transaction. -/
def withOpen (db : Database) (tx : Nat) (t : OpenTransaction) : Database :=
  { db with opened := db.opened.insert tx t }

/-- Forgets a transaction. -/
def abandon (db : Database) (tx : Nat) : Database := { db with opened := db.opened.erase tx }

/-- Ends a transaction by writing its rows, if none of them has changed. -/
def commit (db : Database) (tx : Nat) (t : OpenTransaction) : Except StoreError Unit × Database :=
  let db := db.abandon tx
  if t.isCurrent db.rows then (.ok (),
    { db with rows := t.writeTo db.rows, commits := db.commits + 1 })
  else (.error .serializationFailure, { db with rollbacks := db.rollbacks + 1 })

/-- Answers a request. -/
def step (db : Database) : (r : TransactionalStore.Request) →
    Except StoreError (TransactionalStore.Result r) × Database
  | .begin context => let (tx, db) := db.begin context.isolation; (.ok tx, db)
  | .fetch tx table id =>
    match db.opened.get? tx with
    | none => (.error .finished, db)
    | some t => let (row, t) := t.read db.rows (table, id); (.ok row, db.withOpen tx t)
  | .insert tx table row =>
    match db.opened.get? tx with
    | none => (.error .finished, db)
    | some t => let (r, t) := t.insert db.rows table row; (r, db.withOpen tx t)
  | .update tx table id patch expected =>
    match db.opened.get? tx with
    | none => (.error .finished, db)
    | some t => let (n, t) := t.update db.rows (table, id) patch expected; (.ok n, db.withOpen tx t)
  | .commit tx =>
    match db.opened.get? tx with
    | none => (.error .finished, db)
    | some t => db.commit tx t
  | .rollback tx =>
    match db.opened.get? tx with
    | none => (.error .finished, db)
    | some _ => (.ok (), { db.abandon tx with rollbacks := db.rollbacks + 1 })

end Database

end GuardedWrites

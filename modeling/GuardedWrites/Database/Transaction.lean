import GuardedWrites.Entity.Row
import GuardedWrites.Failure
import GuardedWrites.Table
import GuardedWrites.Transaction.Context

/-!
# Open transactions

A transaction buffers its writes and remembers what each row counted when it was first read, none if
there was no such row. It sees its own writes, and otherwise what is committed at that moment.

What an update expects is a version. Whether a row has changed is judged by counts, which differ
from versions only for a row that is updated as often as there are versions while a transaction is
open.

* `OpenTransaction.read`, `OpenTransaction.insert`, `OpenTransaction.update` — its operations;
* `OpenTransaction.isCurrent` — whether no row that it wrote has changed since it was first read.
-/

namespace GuardedWrites

/-- A table and the id of a row in it. -/
abbrev RowKey := String × String

/-- The committed rows. -/
abbrev Rows := Table RowKey Row

/-- What a committed row counts. -/
def Rows.count? (rows : Rows) (key : RowKey) : Option Nat :=
  (rows.get? key).map Row.effectiveCount

/-- What a transaction has read and written so far. -/
structure OpenTransaction where
  isolation : IsolationLevel
  base : Table RowKey (Option Nat)
  writes : Table RowKey Row

namespace OpenTransaction

/-- A transaction that has done nothing. -/
def new (isolation : IsolationLevel) : OpenTransaction := ⟨isolation, .empty, .empty⟩

/-- Remembers what a row counts, unless that is remembered already. -/
def remember (t : OpenTransaction) (key : RowKey) (count : Option Nat) : OpenTransaction :=
  if t.base.has key then t else { t with base := t.base.insert key count }

/-- Reads a row: its own write, or what is committed. -/
def read (t : OpenTransaction) (rows : Rows) (key : RowKey) : Option Row × OpenTransaction :=
  match t.writes.get? key with
  | some row => (some row, t)
  | none => (rows.get? key, t.remember key (rows.count? key))

/-- Inserts a row under a key that has none. -/
def insert (t : OpenTransaction) (rows : Rows) (table : String) (row : Row) :
    Except StoreError Unit × OpenTransaction :=
  match t.read rows (table, row.id) with
  | (some _, t) => (.error (.uniqueViolation (table ++ ".id = " ++ row.id)), t)
  | (none, t) => (.ok (), { t with writes := t.writes.insert (table, row.id) row })

/-- Applies a patch to a row if it has the expected version, and tells how many rows were
affected. -/
def update (t : OpenTransaction) (rows : Rows) (key : RowKey) (patch : Fields)
    (expected : Option UInt64) :
    Nat × OpenTransaction :=
  match t.read rows key with
  | (none, t) => (0, t)
  | (some row, t) =>
    if expected.any fun e => row.effectiveVersion ≠ e then (0, t)
    else (1, { t with writes := t.writes.insert key (row.apply patch) })

/-- Whether every row that the transaction wrote still counts what it did when it was first read. -/
def isCurrent (t : OpenTransaction) (rows : Rows) : Bool :=
  t.writes.entries.all fun e => rows.count? e.1 = (t.base.get? e.1).join

/-- The committed rows with the writes of the transaction. -/
def writeTo (t : OpenTransaction) (rows : Rows) : Rows :=
  t.writes.entries.foldl (fun rows e => rows.insert e.1 e.2) rows

end OpenTransaction

end GuardedWrites

import GuardedWrites.Effect.Program
import GuardedWrites.Failure
import GuardedWrites.Idempotency.Record
import GuardedWrites.Table

/-!
# Stores of idempotency records

`RecordStore` is the service that a guard keeps its records in. `Records` is such a store in
process: each record lives for its own time from the moment it was stored. A read or a claim that
meets a record past its time treats it as absent, and a sweep after a number of writes collects
those that nobody asks for.

* `Records.get`, `Records.put`, `Records.putIfAbsent`, `Records.remove`, `Records.purge` — the
  operations;
* `Records.step` — the first four as one function on `RecordStore.Request`.
-/

namespace GuardedWrites

namespace RecordStore

/-- What can be asked of a store of records. -/
inductive Request where
  | get (key : String)
  | put (record : IdempotencyRecord) (ttl : Span)
  | putIfAbsent (record : IdempotencyRecord) (ttl : Span)
  | remove (key : String)

/-- What a successful answer holds; that of a claim tells whether the record was stored. -/
abbrev Result : Request → Type
  | .get _ => Option IdempotencyRecord
  | .put _ _ => Unit
  | .putIfAbsent _ _ => Bool
  | .remove _ => Unit

/-- The store of records as a service. -/
abbrev service : Service := ⟨Request, fun r => Except BackendError (Result r)⟩

end RecordStore

/-- A record and how long it lives. -/
structure StoredRecord where
  record : IdempotencyRecord
  ttl : Span

/-- Whether a record is past its time. -/
def StoredRecord.isExpired (s : StoredRecord) (now : Moment) : Bool :=
  s.ttl ≤ s.record.storedAt.elapsed now

/-- Records by key, the writes so far, and after how many of them the store is swept. -/
structure Records where
  table : Table String StoredRecord
  writes : Nat
  purgeInterval : Nat

namespace Records

/-- Writes between two sweeps, unless it is set. -/
def defaultPurgeInterval : Nat := 1024

/-- A store without records, swept after every `interval` writes, at least one. -/
def empty (interval : Nat) : Records := ⟨.empty, 0, max interval 1⟩

/-- The number of records, those past their time included. -/
def size (s : Records) : Nat := s.table.size

/-- The record under a key, if it is still alive. -/
def live? (s : Records) (now : Moment) (key : String) : Option StoredRecord :=
  (s.table.get? key).filter fun r => !r.isExpired now

/-- Drops every record past its time, and says how many there were. -/
def purge (s : Records) (now : Moment) : Nat × Records :=
  let kept := s.table.filter fun _ r => !r.isExpired now
  (s.table.size - kept.size, { s with table := kept })

/-- Counts a write, and sweeps when it is time. -/
def noteWrite (s : Records) (now : Moment) : Records :=
  let s := { s with writes := s.writes + 1 }
  if s.writes % s.purgeInterval = 0 then (s.purge now).2 else s

/-- Reads a record. One past its time is removed. -/
def get (s : Records) (now : Moment) (key : String) : Option IdempotencyRecord × Records :=
  match s.table.get? key with
  | none => (none, s)
  | some r => if r.isExpired now
      then (none, { s with table := s.table.erase key }) else (some r.record, s)

/-- Stores a record in place of any other. -/
def put (s : Records) (now : Moment) (record : IdempotencyRecord) (ttl : Span) : Records :=
  { s with table := s.table.insert record.key ⟨record, ttl⟩ }.noteWrite now

/-- Stores a record unless one is alive under its key, and tells whether it did. -/
def putIfAbsent (s : Records) (now : Moment) (record : IdempotencyRecord) (ttl : Span) :
    Bool × Records :=
  match s.live? now record.key with
  | some _ => (false, s)
  | none => (true, s.put now record ttl)

/-- Removes a record. -/
def remove (s : Records) (key : String) : Records := { s with table := s.table.erase key }

/-- Answers a request at a clock reading. -/
def step (now : Moment) (s : Records) : (r : RecordStore.Request) → RecordStore.Result r × Records
  | .get key => s.get now key
  | .put record ttl => ((), s.put now record ttl)
  | .putIfAbsent record ttl => s.putIfAbsent now record ttl
  | .remove key => ((), s.remove key)

end Records

end GuardedWrites

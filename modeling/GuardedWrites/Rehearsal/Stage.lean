import GuardedWrites.Idempotency.Guard
import GuardedWrites.Rate.Limiter
import GuardedWrites.Rehearsal.Script

/-!
# The stage of a script

All that the statements of a script act on: databases behind stores with planned faults, the clock,
the state of one limiter, the records of one guard, handles that were kept, and the journal of the
runs under way.

* `Stage.ofStore` — a request to a store, which may meet a fault on its way to the database;
* `Stage.step` — every indivisible step, as one function on `Stage.Request`.
-/

namespace GuardedWrites.Rehearsal

/-- What happens to one call of a store: rows that another writer commits first, and an error in
place of the call. -/
structure Fault where
  rows : List (String × Row)
  error : Option StoreError

/-- A store over one of the databases, with the faults of its next calls by kind. -/
structure StorePlan where
  database : Nat
  begin : List (Option Fault)
  commit : List (Option Fault)
  rollback : List (Option Fault)

/-- Takes the fault of a call from the plan. -/
def StorePlan.take (s : StorePlan) : TransactionalStore.Request → Option Fault × StorePlan
  | .begin _ => (s.begin.head?.join, { s with begin := s.begin.tail })
  | .commit _ => (s.commit.head?.join, { s with commit := s.commit.tail })
  | .rollback _ => (s.rollback.head?.join, { s with rollback := s.rollback.tail })
  | _ => (none, s)

/-- What the statements of a script act on. The journal holds a frame for each run under way, with
the entries of each of its attempts. -/
structure Stage where
  databases : List Database
  stores : List StorePlan
  clock : Moment
  settings : LimiterSettings
  limiter : Limiter.State Float
  records : Records
  kept : List (String × Handle)
  journal : List (List (List Entry))

namespace Stage

/-- The indivisible steps on a stage. -/
inductive Request where
  | store (index : Nat) (r : TransactionalStore.Request)
  | limiter (r : Limiter.Request Float)
  | records (r : RecordStore.Request)
  | now
  | advance (d : Span)
  | seed (db : Nat) (table : String) (row : Row)
  | get (db : Nat) (table id : String)
  | rowCount (db : Nat) (table : String)
  | keep (slot : String) (h : Handle)
  | kept (slot : String)
  | limiterState
  | openRun
  | openAttempt (depth : Nat)
  | note (depth : Nat) (e : Entry)
  | closeRun (depth : Nat)

/-- What the reply to a step holds. -/
abbrev Reply : Request → Type
  | .store _ r => Except StoreError (TransactionalStore.Result r)
  | .limiter r => (Limiter.service Float).Reply r
  | .records r => Except BackendError (RecordStore.Result r)
  | .now => Moment
  | .get _ _ _ => Option Row
  | .rowCount _ _ => Nat
  | .kept _ => Option Handle
  | .limiterState => Counters × Health
  | .openRun => Nat
  | .openAttempt _ => Nat
  | .closeRun _ => List (List Entry)
  | _ => Unit

/-- The stage as a service. -/
abbrev service : Service := ⟨Request, Reply⟩

/-- The number of databases that stores use. -/
def databaseCount (stores : List StorePlan) : Nat :=
  stores.foldl (fun n s => max n (s.database + 1)) 0

/-- A stage on which nothing has happened. -/
def initial (stores : List StorePlan) (settings : LimiterSettings) (clock : Moment) : Stage :=
  ⟨.replicate (databaseCount stores) .empty, stores, clock, settings, .initial,
    .empty Records.defaultPurgeInterval, [], []⟩

/-- One of the databases. -/
def database (w : Stage) (db : Nat) : Database := w.databases[db]?.getD .empty

/-- Puts back a database. -/
def withDatabase (w : Stage) (db : Nat) (d : Database) : Stage :=
  { w with databases := w.databases.set db d }

/-- The database when the end of a transaction got lost on the way: the transaction is forgotten. -/
def lose (d : Database) : TransactionalStore.Request → Database
  | .commit tx => d.abandon tx
  | .rollback tx => d.abandon tx
  | _ => d

/-- A request to a store. -/
def ofStore (w : Stage) (index : Nat) (r : TransactionalStore.Request) :
    Except StoreError (TransactionalStore.Result r) × Stage :=
  match w.stores[index]? with
  | none => (.error .finished, w)
  | some s =>
    let (fault, rest) := s.take r
    let w := { w with stores := w.stores.set index rest }
    let rows := (fault.map Fault.rows).getD []
    let d := rows.foldl (fun d e => d.seed e.1 e.2) (w.database s.database)
    match fault.bind Fault.error with
    | some e => (.error e, w.withDatabase s.database (lose d r))
    | none =>
      let (x, d) := d.step r
      (x, w.withDatabase s.database d)

/-- Changes the frame of the run at a depth. -/
def editFrame (w : Stage) (depth : Nat) (f : List (List Entry) → List (List Entry)) : Stage :=
  { w with journal := w.journal.modify depth f }

/-- The attempts with an entry added to the last of them. -/
def addEntry (e : Entry) : List (List Entry) → List (List Entry)
  | [] => []
  | [es] => [es ++ [e]]
  | es :: rest => es :: addEntry e rest

/-- The attempts of the run at a depth. -/
def attemptsAt (w : Stage) (depth : Nat) : List (List Entry) := w.journal[depth]?.getD []

/-- One step. -/
def step : (r : Request) → Stage → Reply r × Stage
  | .store index r, w => w.ofStore index r
  | .limiter r, w =>
    let (x, s) := Limiter.step w.settings w.clock w.limiter r
    (x, { w with limiter := s })
  | .records r, w =>
    let (x, records) := w.records.step w.clock r
    (.ok x, { w with records := records })
  | .now, w => (w.clock, w)
  | .advance d, w => ((), { w with clock := w.clock.later d })
  | .seed db table row, w => ((), w.withDatabase db ((w.database db).seed table row))
  | .get db table id, w => ((w.database db).get? table id, w)
  | .rowCount db table, w => ((w.database db).rowCount table, w)
  | .keep slot h, w => ((), { w with kept := (slot, h) :: w.kept })
  | .kept slot, w => (w.kept.lookup slot, w)
  | .limiterState, w => ((w.limiter.counters, w.limiter.breaker.health), w)
  | .openRun, w => (w.journal.length, { w with journal := w.journal ++ [[]] })
  | .openAttempt depth, w => ((w.attemptsAt depth).length, w.editFrame depth fun as => as ++ [[]])
  | .note depth e, w => ((), w.editFrame depth (addEntry e))
  | .closeRun depth, w => (w.attemptsAt depth, { w with journal := w.journal.take depth })

end Stage

end GuardedWrites.Rehearsal

import GuardedWrites.Entity.Room
import GuardedWrites.Entity.Store
import GuardedWrites.Mutation
import GuardedWrites.Rehearsal.Document

/-!
# Scripts of transactions

A `Statement` is one thing that a caller does to databases, in a transaction or outside any. Runs
and mutations hold the statements of their work, one list for each attempt, so statements nest. An
`Entry` is what the trace tells of a statement: its result, and for a run also the entries of every
attempt.
-/

namespace GuardedWrites.Rehearsal

/-- The version that an update asks for. -/
inductive Expected where
  | anything
  | version (n : UInt64)
  | lastFetched

/-- What is done to a transaction by its handle. An update may turn "no row was affected" into a
failure. -/
inductive Access where
  | context
  | fetch (table id : String)
  | insert (table : String) (row : Row)
  | update (table id : String) (patch : Fields) (expected : Expected) (zero : Option Failure)

/-- What is done to an entity. -/
inductive EntityAccess (α : Type) [Entity α] where
  | create (a : α)
  | read (id : String)
  | update (id : String) (changes : Entity.Changes α) (expected : Option UInt64)

/-- The type of the failures of some work: any failure, store errors alone, or failures that show
none. -/
inductive FailureKind where
  | any
  | storeErrors
  | concealed

/-- How a run is made: on which runner, with what failures, for how long at most, and whether on a
task of its own. -/
structure RunPlan where
  runner : Nat
  spec : RunSpec
  failures : FailureKind
  timeout : Option Span
  spawned : Bool

/-- One thing that a caller does. A leaked statement acts through a handle that was kept. A failure
of a caught statement does not end the attempt around it. -/
inductive Statement where
  | seed (db : Nat) (table : String) (row : Row)
  | get (db : Nat) (table id : String)
  | rowCount (db : Nat) (table : String)
  | advance (d : Span)
  | sleep (d : Span)
  | room (runner : Nat) (a : EntityAccess Room)
  | document (runner : Nat) (a : EntityAccess Document)
  | access (a : Access)
  | leak (slot : String)
  | leaked (slot : String) (s : Statement)
  | limiterState
  | resetLimiter (key : String)
  | run (plan : RunPlan) (attempts : List (List Statement))
  | mutate (x : Mutation) (attempts : List (List Statement))
  | caught (s : Statement)
  | finish (result : Except Failure Json)
  | hang

/-- How the statement ends the attempt around it, if it does. -/
def Statement.ending? : Statement → Option (Except Failure Json)
  | .finish result => some result
  | .caught s => s.ending?
  | _ => none

/-- Whether a failure of the statement is caught. -/
def Statement.isCaught : Statement → Bool
  | .caught _ => true
  | _ => false

/-- What a successful statement gives. -/
inductive Value where
  | nothing
  | count (n : Nat)
  | found (row : Option Row)
  | fetched (row : Option Row)
  | context (c : TransactionContext)
  | room (v : Versioned Room)
  | document (v : Versioned Document)
  | limiter (counters : Counters) (health : Health)
  | returned (v : Json)
  | executed (e : Execution Json)
  | abandoned

/-- What the trace tells of a statement. -/
inductive Entry where
  | plain (result : Except Failure Value)
  | nested (result : Except Failure Value) (attempts : List (List Entry))

namespace Entry

/-- The result of the statement. -/
def result : Entry → Except Failure Value
  | .plain r => r
  | .nested r _ => r

/-- The version that a fetch has seen, if the statement was one: none if there was no row. -/
def seen? (e : Entry) : Option (Option UInt64) :=
  match e.result with
  | .ok (.fetched row) => some (row.map Row.effectiveVersion)
  | _ => none

end Entry

end GuardedWrites.Rehearsal

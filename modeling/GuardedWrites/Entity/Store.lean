import GuardedWrites.Entity.Versioned
import GuardedWrites.Transaction.Runner

/-!
# Entities under version checks

A writer passes the version it has read. The check of the version and its increment are one
statement of the store, so two writers with the same version cannot both succeed.

* `EntityStore.read`, `EntityStore.create`, `EntityStore.update` — each in a run of its own.
-/

namespace GuardedWrites.EntityStore

variable {m : Type → Type} [Monad m] [MonadReaderOf Scope m] [MonadWithReaderOf Scope m] [Timed m]
variable (α : Type) [Entity α]

/-- How a statement on entities of this type is run. -/
def spec (verb : String) (isolation : IsolationLevel) (lockRows : Bool) : RunSpec :=
  { RunSpec.standard with
    isolation := isolation, lockRows := lockRows, operation := verb ++ " " ++ Entity.table α }

/-- There is no such entity. -/
def missing (id : String) : Failure := .notFound (Entity.table α) id

/-- What an update tells, given the number of rows affected and the row as it is read afterwards. -/
def judgeUpdate (id : String) (affected : Nat) (current : Option Row) (expected : Option UInt64) :
    Except Failure (Versioned α) :=
  match affected, current, expected with
  | 0, some row, some e => .error (.versionConflict e row.effectiveVersion)
  | 0, _, _ => .error (missing α id)
  | _, none, _ => .error (missing α id)
  | _, some row, _ => Entity.decode row

/-- The work of a read. -/
def readWork (R : Runner m) (id : String) (tx : Handle) : m (Except Failure (Versioned α)) := do
  match ← R.fetch tx (Entity.table α) id with
  | .error e => return .error (.store e)
  | .ok none => return .error (missing α id)
  | .ok (some row) => return Entity.decode row

/-- The work of a creation. -/
def createWork (R : Runner m) (row : Row) (tx : Handle) : m (Except Failure (Versioned α)) := do
  match ← R.insert tx (Entity.table α) row with
  | .error e => return .error (.store e)
  | .ok () => return Entity.decode row

/-- The work of an update. -/
def updateWork (R : Runner m) (id : String) (patch : Fields) (expected : Option UInt64)
    (tx : Handle) :
    m (Except Failure (Versioned α)) := do
  match ← R.update tx (Entity.table α) id patch expected with
  | .error e => return .error (.store e)
  | .ok affected =>
    match ← R.fetch tx (Entity.table α) id with
    | .error e => return .error (.store e)
    | .ok current => return judgeUpdate α id affected current expected

/-- Reads an entity with its version. -/
def read (R : Runner m) (id : String) : m (Except Failure (Versioned α)) :=
  R.run (spec α "read" .readCommitted false) (readWork α R id)

variable {α}

/-- Inserts an entity at its first version. -/
def create (R : Runner m) (a : α) : m (Except Failure (Versioned α)) :=
  match Entity.encode a with
  | .error f => pure (.error f)
  | .ok row => R.run (spec α "create" .readCommitted false) (createWork α R row)

/-- Applies changes and raises the version, if the stored version is the expected one. -/
def update (R : Runner m) (id : String) (changes : Entity.Changes α) (expected : Option UInt64) :
    m (Except Failure (Versioned α)) :=
  match Entity.patch changes with
  | .error f => pure (.error f)
  | .ok patch => R.run (spec α "update" .serializable true) (updateWork α R id patch expected)

end GuardedWrites.EntityStore

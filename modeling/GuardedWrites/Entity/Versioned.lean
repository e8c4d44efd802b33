import GuardedWrites.Entity.Row
import GuardedWrites.Failure
import GuardedWrites.Json.Mismatch

/-!
# Entities and their rows

An `Entity` is a type whose values are kept as rows of one table. Its id and its version are columns
of the row and no business fields: the id is put back when the row is read, and the version is
managed by the store alone, so neither may be among the changes of an update.

* `Entity.encode`, `Entity.decode` — from an entity to its row and back;
* `Entity.patch` — from changes to the fields they set.
-/

namespace GuardedWrites

/-- A type of entities: its table, its changes, and the JSON forms of both. -/
class Entity (α : Type) where
  Changes : Type
  table : String
  id : α → String
  toJson : α → Json
  ofJson : Json → Except Mismatch α
  changesToJson : Changes → Json

/-- An entity with the version it was read at. -/
structure Versioned (α : Type) where
  entity : α
  version : UInt64

namespace Entity

/-- The column of the id. -/
def idField : String := "id"

/-- The column of the version. -/
def versionField : String := "version"

/-- The members of a value, which must be an object. -/
def members : Json → Except Failure Fields
  | .obj fs => .ok fs
  | v => .error (.invalidChanges ("expected an object, got " ++ v.render))

/-- The fields that changes set. -/
def patchOfJson (changes : Json) : Except Failure Fields := do
  let fs ← members changes
  if fs.has versionField then .error .versionNotWritable
  else if fs.has idField then .error (.invalidChanges "the primary key cannot be changed")
  else .ok fs

variable {α : Type} [Entity α]

/-- The fields that changes of an entity set. -/
def patch (changes : Changes α) : Except Failure Fields := patchOfJson (changesToJson changes)

/-- The row of an entity at its first version. -/
def encode (a : α) : Except Failure Row := do
  let fs ← members (toJson a)
  let fs := fs.erase idField
  if fs.has versionField then .error .versionNotWritable else .ok (.new (id a) fs)

/-- The entity of a row. -/
def decode (r : Row) : Except Failure (Versioned α) :=
  match ofJson (.obj (r.fields.insert idField (.str r.id))) with
  | .ok a => .ok ⟨a, r.effectiveVersion⟩
  | .error fault => .error (.codec fault.message)

end Entity

end GuardedWrites

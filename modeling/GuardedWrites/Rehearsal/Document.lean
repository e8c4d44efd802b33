import GuardedWrites.Entity.Versioned

/-!
# Documents

An entity without a shape of its own: any JSON value. What a store of entities does with values that
are no objects, or that have no id, shows on documents.
-/

namespace GuardedWrites.Rehearsal

/-- Any JSON value as an entity. -/
structure Document where
  content : Json

/-- The text under the id column, empty if there is none. -/
def Document.id (d : Document) : String :=
  match d.content with
  | .obj fs =>
    match Fields.get? Entity.idField fs with
    | some (.str s) => s
    | _ => ""
  | _ => ""

instance : Entity Document where
  Changes := Json
  table := "docs"
  id := Document.id
  toJson := Document.content
  ofJson v := .ok ⟨v⟩
  changesToJson := id

end GuardedWrites.Rehearsal

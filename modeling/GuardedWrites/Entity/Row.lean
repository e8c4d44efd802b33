import GuardedWrites.Json.Format

/-!
# Rows

A `Row` holds the fields of one entity under its id, and counts its updates. Its version is the
count as a number of 64 bits, which starts again from zero after the largest one. A row written
before versions were kept counts nothing and is at version one.

Versions are all that a caller sees of the counts: they are read, expected, compared with each other
and reported. The counts themselves only tell one state of a row from another.
-/

namespace GuardedWrites

/-- A stored row. -/
structure Row where
  id : String
  fields : Fields
  count : Option Nat

namespace Row

/-- What a row counts that was just inserted, and a row without a count. -/
def firstCount : Nat := 1

/-- A new row. -/
def new (id : String) (fields : Fields) : Row := ⟨id, fields, some firstCount⟩

/-- What a row counts. -/
def effectiveCount (r : Row) : Nat := r.count.getD firstCount

/-- The version that is stored with a row. -/
def version (r : Row) : Option UInt64 := r.count.map .ofNat

/-- The version of a row. -/
def effectiveVersion (r : Row) : UInt64 := r.version.getD (.ofNat firstCount)

/-- Stores the fields of a patch and counts one more update. -/
def apply (r : Row) (patch : Fields) : Row :=
  { r with fields := r.fields.merge patch, count := some (r.effectiveCount + 1) }

@[simp] theorem effectiveCount_apply (r : Row) (patch : Fields) :
    (r.apply patch).effectiveCount = r.effectiveCount + 1 := rfl

theorem effectiveVersion_eq (r : Row) : r.effectiveVersion = .ofNat r.effectiveCount := by
  unfold effectiveVersion version effectiveCount
  cases r.count <;> rfl

/-- A patch raises the version by one, and the largest version to zero. -/
theorem version_apply (r : Row) (patch : Fields) :
    (r.apply patch).version = some (r.effectiveVersion + 1) := by
  rw [effectiveVersion_eq]
  exact congrArg some (UInt64.ofNat_add r.effectiveCount 1)

/-- The largest version is followed by zero. -/
example : (Row.apply ⟨"7", [], some (UInt64.size - 1)⟩ []).version = some 0 := by decide

theorem effectiveVersion_apply (r : Row) (patch : Fields) :
    (r.apply patch).effectiveVersion = r.effectiveVersion + 1 := by
  rw [effectiveVersion, version_apply, Option.getD_some]

/-- As long as the count has 64 bits, the version is the count. -/
theorem toNat_effectiveVersion {r : Row} (h : r.effectiveCount < UInt64.size) :
    r.effectiveVersion.toNat = r.effectiveCount := by
  rw [effectiveVersion_eq]
  exact UInt64.toNat_ofNat_of_lt' h

end Row

open Written in
instance : Format Row where
  write r :=
    .obj [("id", .str r.id), ("fields", .obj r.fields),
      ("version", .ofOption (fun v => .ofNat v.toNat) r.version)]
  read w := do
    let p ← w.parts? ["id", "fields", "version"] false
    let id ← p.required 0 text?
    let fields ← p.required 1 fields?
    let version ← p.orNull 2 (option? nat?)
    return ⟨id, fields, version⟩

end GuardedWrites

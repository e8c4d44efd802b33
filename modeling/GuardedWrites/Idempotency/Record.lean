import GuardedWrites.Json.Format

/-!
# Records of idempotent operations

A record under a key says that an exclusive execution holds the key, or that the operation succeeded
with a result. The absence of a completed record means that the operation has not durably succeeded.
-/

namespace GuardedWrites

/-- What a record says. -/
inductive RecordStatus where
  | pending
  | completed
deriving DecidableEq

/-- What is known about the operation of a key. -/
structure IdempotencyRecord where
  key : String
  status : RecordStatus
  result : List UInt8
  storedAt : Moment
deriving DecidableEq

namespace IdempotencyRecord

/-- An execution holds the key. -/
def pending (key : String) (now : Moment) : IdempotencyRecord := ⟨key, .pending, [], now⟩

/-- The operation succeeded. -/
def completed (key : String) (result : List UInt8) (now : Moment) : IdempotencyRecord :=
  ⟨key, .completed, result, now⟩

/-- Whether the operation succeeded. -/
def isCompleted (r : IdempotencyRecord) : Bool := r.status = .completed

end IdempotencyRecord

/-- Parts joined into one key, in their order. -/
def generateKey (parts : List String) : String := ":".intercalate parts

/-- The name of a record status. -/
def RecordStatus.name : RecordStatus → String
  | .pending => "Pending"
  | .completed => "Completed"

/-- How long records live and under which keys they are kept. -/
structure IdempotencyConfig where
  recordTtl : Span
  lockTtl : Span
  keyPrefix : String

/-- Records live a day, markers half a minute. -/
def IdempotencyConfig.standard : IdempotencyConfig := ⟨.ofSecs 86400, .ofSecs 30, "idempotency:"⟩

/-- A result, and whether the operation ran during this call. -/
structure Execution (ρ : Type) where
  wasExecuted : Bool
  result : ρ

open Written

instance : Format RecordStatus where
  write s := .str s.name
  read := choice? [("Pending", .pending), ("Completed", .completed)]

instance : Format IdempotencyRecord where
  write r := .obj [("key", .str r.key), ("status", Format.write r.status),
    ("result", .arr (r.result.map fun b => .ofNat b.toNat)), ("stored_at", Format.write r.storedAt)]
  read w := do
    let p ← w.parts? ["key", "status", "result", "stored_at"] false
    let key ← p.required 0 text?
    let status ← p.required 1 Format.read
    let result ← p.required 2 (list? (natUpTo? 255))
    let storedAt ← p.required 3 Format.read
    return ⟨key, status, result.map UInt8.ofNat, storedAt⟩

instance : Format IdempotencyConfig where
  write c := .obj [("record_ttl", Format.write c.recordTtl), ("lock_ttl", Format.write c.lockTtl),
    ("key_prefix", .str c.keyPrefix)]
  read w := do
    let p ← w.parts? ["record_ttl", "lock_ttl", "key_prefix"] false
    let recordTtl ← p.orElse 0 IdempotencyConfig.standard.recordTtl Format.read
    let lockTtl ← p.orElse 1 IdempotencyConfig.standard.lockTtl Format.read
    let keyPrefix ← p.orElse 2 IdempotencyConfig.standard.keyPrefix text?
    return ⟨recordTtl, lockTtl, keyPrefix⟩

instance {ρ : Type} [Format ρ] : Format (Execution ρ) where
  write e := .obj [("was_executed", .bool e.wasExecuted), ("result", Format.write e.result)]
  read w := do
    let p ← w.parts? ["was_executed", "result"] false
    let wasExecuted ← p.required 0 bool?
    let result ← p.required 1 Format.read
    return ⟨wasExecuted, result⟩

end GuardedWrites

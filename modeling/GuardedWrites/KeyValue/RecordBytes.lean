import GuardedWrites.Idempotency.Record
import GuardedWrites.Text.Utf8

/-!
# Records as bytes

A record is written as its key, its status, its result and its moment, one after another. Numbers
have a fixed width, least byte first; texts and bytes are preceded by their length in eight bytes. A
moment is its seconds and nanoseconds after the epoch, so an earlier one cannot be written.

* `RecordBytes.encode?`, `RecordBytes.decode?` — from a record to its bytes and back; what follows
  is ignored.
-/

namespace GuardedWrites.KeyValue.RecordBytes

/-- The lowest `width` bytes of a number, least first. -/
def littleEndian : (width : Nat) → Nat → List UInt8
  | 0, _ => []
  | width + 1, n => UInt8.ofNat n :: littleEndian width (n / 256)

/-- The number that bytes write, least first. -/
def valueOf : List UInt8 → Nat
  | [] => 0
  | b :: rest => b.toNat + 256 * valueOf rest

/-- The first `n` bytes and the rest, if there are so many. -/
def take? (n : Nat) (bs : List UInt8) : Option (List UInt8 × List UInt8) :=
  if n ≤ bs.length then some (bs.splitAt n) else none

/-- A number of `width` bytes, and the rest. -/
def number? (width : Nat) (bs : List UInt8) : Option (Nat × List UInt8) :=
  (take? width bs).map fun (a, rest) => (valueOf a, rest)

/-- Bytes with their length before them. -/
def block (bs : List UInt8) : List UInt8 := littleEndian 8 bs.length ++ bs

/-- Bytes with their length before them, and the rest. -/
def block? (bs : List UInt8) : Option (List UInt8 × List UInt8) :=
  (number? 8 bs).bind fun (n, rest) => take? n rest

/-- The number that stands for a status. -/
def statusNumber : RecordStatus → Nat
  | .pending => 0
  | .completed => 1

/-- The status that a number stands for. -/
def status? : Nat → Option RecordStatus
  | 0 => some .pending
  | 1 => some .completed
  | _ => none

/-- Seconds that a moment can be after the epoch. -/
def secsLimit : Nat := UInt64.size / 2

/-- The moment so many seconds and nanoseconds after the epoch, if it can be told. -/
def moment? (secs nanos : Nat) : Option Moment :=
  if secs + nanos / nanosPerSecond < secsLimit then some (.ofParts secs nanos) else none

/-- The bytes of a record, if its moment is not before the epoch. -/
def encode? (r : IdempotencyRecord) : Option (List UInt8) :=
  if r.storedAt < .epoch then none
  else some (block (Text.bytes r.key) ++ littleEndian 4 (statusNumber r.status) ++ block r.result ++
    littleEndian 8 r.storedAt.secs.toNat ++ littleEndian 4 r.storedAt.subsecNanos)

/-- The record that bytes start with. -/
def decode? (bs : List UInt8) : Option IdempotencyRecord := do
  let (keyBytes, bs) ← block? bs
  let key ← Text.ofBytes? keyBytes
  let (n, bs) ← number? 4 bs
  let status ← status? n
  let (result, bs) ← block? bs
  let (secs, bs) ← number? 8 bs
  let (nanos, _) ← number? 4 bs
  let storedAt ← moment? secs nanos
  return ⟨key, status, result, storedAt⟩

end GuardedWrites.KeyValue.RecordBytes

import GuardedWrites.Json.Parser
import GuardedWrites.Json.Printer
import GuardedWrites.Time.Moment

/-!
# Values in JSON form

A `Format` says how values of a type are written and read. A record is read from an object, in which
unknown members are skipped and a known one may stand once, or from a list of its parts in order.
-/

namespace GuardedWrites

/-- How values of a type are written as JSON and read back. -/
class Format (α : Type) where
  write : α → Json
  read : Written → Option α

namespace Written

/-- The parts of a record by position. `listed` tells that they came as a list, where none may be
left out. -/
structure Parts where
  at? : Nat → Option Written
  listed : Bool

/-- The members of an object if all their names are readable. -/
def named? : List (Option String × Written) → Option (List (String × Written))
  | [] => some []
  | (name, w) :: rest => do
    let n ← name
    let ms ← named? rest
    return (n, w) :: ms

/-- The parts of a record with the given member names. `exact` refuses unknown members. -/
def parts? (names : List String) (exact : Bool) : Written → Option Parts
  | .obj false members => do
    let ms ← named? members
    let known := ms.filter fun m => names.contains m.1
    if exact && known.length < ms.length then none
    else if names.any fun n => 1 < (known.filter fun m => m.1 == n).length then none
    else some ⟨fun i => (names[i]?).bind fun n =>
      (known.find? fun m => m.1 == n).map Prod.snd, false⟩
  | .arr false items =>
    if items.length ≤ names.length then some ⟨fun i => items[i]?, true⟩ else none
  | _ => none

namespace Parts

/-- A part that must be there. -/
def required {α : Type} (p : Parts) (i : Nat) (read : Written → Option α) : Option α :=
  (p.at? i).bind read

/-- A part whose absence counts as null. -/
def orNull {α : Type} (p : Parts) (i : Nat) (read : Written → Option α) : Option α :=
  match p.at? i with
  | some w => read w
  | none => if p.listed then none else read .null

/-- A part with a default. -/
def orElse {α : Type} (p : Parts) (i : Nat) (fallback : α) (read : Written → Option α) : Option α :=
  match p.at? i with
  | some w => read w
  | none => some fallback

end Parts

/-- A natural number up to `limit`. -/
def natUpTo? (limit : Nat) : Written → Option Nat
  | .num (some (.natural n)) => if n ≤ limit then some n else none
  | _ => none

/-- A natural number of 64 bits. -/
def nat? : Written → Option Nat := natUpTo? (UInt64.size - 1)

/-- A natural number of 32 bits. -/
def nat32? : Written → Option Nat := natUpTo? (UInt32.size - 1)

/-- A binary number; whole numbers are rounded to one. -/
def float? : Written → Option Float
  | .num (some (.natural n)) => some (Float.ofNat n)
  | .num (some (.negative n)) => some (Float.ofInt n)
  | .num (some (.real x)) => some x
  | _ => none

/-- A string. -/
def text? : Written → Option String
  | .str s => s
  | _ => none

/-- A truth value. -/
def bool? : Written → Option Bool
  | .bool b => some b
  | _ => none

/-- A value or null. -/
def option? {α : Type} (read : Written → Option α) : Written → Option (Option α)
  | .null => some none
  | w => (read w).map some

/-- A list. -/
def list? {α : Type} (read : Written → Option α) : Written → Option (List α)
  | .arr false items => items.mapM read
  | _ => none

/-- One of several names: its string, or an object with that name alone and null under it. -/
def choice? {α : Type} (names : List (String × α)) : Written → Option α
  | .str (some s) => names.lookup s
  | .obj false [(some s, .null)] => names.lookup s
  | _ => none

/-- The members of an object that holds data. -/
def fields? (w : Written) : Option Fields :=
  match w.value? with
  | some (.obj fs) => some fs
  | _ => none

end Written

open Written in
instance : Format Span where
  write d := .obj [("secs", .ofNat d.secs), ("nanos", .ofNat d.subsecNanos)]
  read w := do
    let p ← w.parts? ["secs", "nanos"] true
    let s ← p.required 0 nat?
    let n ← p.required 1 nat32?
    if s + n / nanosPerSecond < UInt64.size then some (.ofParts s n) else none

open Written in
instance : Format Moment where
  write t := .obj [("secs_since_epoch", .ofNat t.secs.toNat),
    ("nanos_since_epoch", .ofNat t.subsecNanos)]
  read w := do
    let p ← w.parts? ["secs_since_epoch", "nanos_since_epoch"] true
    let s ← p.required 0 nat?
    let n ← p.required 1 nat32?
    if s + n / nanosPerSecond < UInt64.size / 2 then some (.ofParts s n) else none

open Written in
instance : Format Json where
  write v := v
  read := value?

open Written in
instance : Format String where
  write := .str
  read := text?

/-- The text of a value. -/
def Format.print {α : Type} [Format α] (a : α) : String := (Format.write a).render

/-- The value that a text writes. -/
def Format.parse? {α : Type} [Format α] (text : String) : Option α :=
  (Written.parse? text).bind Format.read

/-- The value that a JSON value writes. -/
def Format.ofJson? {α : Type} [Format α] (v : Json) : Option α := Format.read (Written.ofJson v)

end GuardedWrites

import GuardedWrites.Decimal.Whole
import GuardedWrites.Text.Utf8

/-!
# Replies of a key-value server

A `Reply` is what the server sends back: a number, bytes, nothing, a list, a status word, or an
error. Readers are lenient where the server is: a number may be written as text, and a text may be a
number or a status.

* `Reply.trouble?` — the error in a reply, which may sit inside a list, or that it cannot be read;
* `Reply.int64?`, `Reply.nat64?`, `Reply.byte?`, `Reply.float?`, `Reply.text?`, `Reply.bytes?` —
  what single values hold;
* `Reply.triple?`, `Reply.pair?`, `Reply.pairs?`, `Reply.texts?` — what lists hold.
-/

namespace GuardedWrites.KeyValue

/-- A reply of the server. -/
inductive Reply where
  | integer (n : Int)
  | bulk (bytes : List UInt8)
  | nil
  | list (items : List Reply)
  | status (word : String)
  | error (text : String)

namespace Reply

mutual

/-- The first error in a reply. -/
def error? : Reply → Option String
  | .error text => some text
  | .list items => errors? items
  | _ => none

/-- The first error in a list of replies. -/
def errors? : List Reply → Option String
  | [] => none
  | r :: rest => (error? r).or (errors? rest)

end

/-- How deep lists nest at most, a single value counted as a level. -/
def depthLimit : Nat := 100

mutual

/-- Whether a reply can be read when so many levels are left: no deeper, and its integers have 64
bits. -/
def fits : Reply → (levels : Nat) → Bool
  | _, 0 => false
  | .list items, levels + 1 => allFit items levels
  | .integer n, _ + 1 => Int64.minValue.toInt ≤ n && n ≤ Int64.maxValue.toInt
  | _, _ + 1 => true

/-- Whether all of a list of replies can be read. -/
def allFit : List Reply → (levels : Nat) → Bool
  | [], _ => true
  | r :: rest, levels => fits r levels && allFit rest levels

end

/-- What is wrong with a reply, if it cannot be read or tells of an error. -/
def trouble? (r : Reply) : Option String :=
  if r.fits depthLimit then r.error? else some "a reply that cannot be read"

/-- The word that an error starts with. -/
def errorCode (text : String) : String := String.ofList (text.toList.takeWhile (· ≠ ' '))

/-- The text of a value that was sent as text. -/
def written? : Reply → Option String
  | .bulk bytes => Text.ofBytes? bytes
  | .status word => some word
  | _ => none

/-- A signed number of 64 bits. -/
def int64? : Reply → Option Int
  | .integer n => some n
  | r => r.written?.bind Decimal.int64?

/-- An unsigned number of 64 bits; a negative one counts down from the top. -/
def nat64? : Reply → Option Nat
  | .integer n => some (n % UInt64.size).toNat
  | r => r.written?.bind Decimal.nat64?

/-- A number with a fraction. -/
def float? : Reply → Option Float
  | .integer n => some (Float.ofInt n)
  | r => r.written?.bind Decimal.parseNumeral?

/-- A text. -/
def text? : Reply → Option String
  | .integer n => some (toString n)
  | r => r.written?

/-- A value that may be nil. -/
def optional? {α : Type} (read : Reply → Option α) : Reply → Option (Option α)
  | .nil => some none
  | r => (read r).map some

/-- A byte; an integer counts by its lowest eight bits. -/
def byte? : Reply → Option UInt8
  | .integer n => some (UInt8.ofNat (n % UInt8.size).toNat)
  | r => (r.written?.bind Decimal.nat8?).map UInt8.ofNat

/-- Bytes: a bulk value, or a list of their numbers. -/
def bytes? : Reply → Option (List UInt8)
  | .bulk bytes => some bytes
  | .list items => items.mapM byte?
  | _ => none

/-- A list of two values. -/
def pair? {α β : Type} (first : Reply → Option α) (second : Reply → Option β) :
    Reply → Option (α × β)
  | .list [a, b] => do return (← first a, ← second b)
  | _ => none

/-- A list of three values. -/
def triple? {α β γ : Type} (first : Reply → Option α) (second : Reply → Option β)
    (third : Reply → Option γ) :
    Reply → Option (α × β × γ)
  | .list [a, b, c] => do return (← first a, ← second b, ← third c)
  | _ => none

/-- Whether a reply is a list. -/
def isList : Reply → Bool
  | .list _ => true
  | _ => false

/-- Pairs whose members follow one another in a list. -/
def flatPairs? {α β : Type} (first : Reply → Option α) (second : Reply → Option β) :
    List Reply → Option (List (α × β))
  | [] => some []
  | a :: b :: rest => do return (← first a, ← second b) :: (← flatPairs? first second rest)
  | [_] => none

/-- A list of pairs, each a list of its own or all in one list. -/
def pairs? {α β : Type} (first : Reply → Option α) (second : Reply → Option β) :
    Reply → Option (List (α × β))
  | .nil => some []
  | .list items =>
    if items.any isList then (items.filter isList).mapM (pair? first second)
    else flatPairs? first second items
  | _ => none

/-- A list of texts; a single one may stand alone. -/
def texts? : Reply → Option (List String)
  | .nil => some []
  | .list items => items.mapM text?
  | .bulk bytes => (Text.ofBytes? bytes).map fun s => [s]
  | _ => none

end Reply

end GuardedWrites.KeyValue

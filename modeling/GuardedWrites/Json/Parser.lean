import GuardedWrites.Json.Written
import GuardedWrites.Text.Hex

/-!
# Reading JSON

`Written.parse?` reads a text by the JSON grammar, without any of its relaxations.

Numbers are read into a 64-bit significand. Whole numbers that fit stay whole. Of longer ones the
digits that no longer fit count only by their place, and the result is the significand times or over
a power of ten, rounded at each step.
-/

namespace GuardedWrites

/-- The parts of a number as written. -/
structure NumberToken where
  negative : Bool
  whole : List Char
  fraction : Option (List Char)
  exponent : Option (Bool × List Char)

namespace NumberToken

/-- The largest significand. -/
def significandLimit : Nat := UInt64.size - 1

/-- Takes digits into a significand while they fit, and returns how many were left out. -/
def gather (significand : Nat) : List Char → Nat × Nat
  | [] => (significand, 0)
  | c :: cs =>
    let next := 10 * significand + (c.toNat - 48)
    if significandLimit < next then (significand, cs.length + 1) else gather next cs

/-- A power of ten as a binary number. -/
def powerOfTen (n : Nat) : Float := Float.ofScientific 1 false n

/-- Scales by a power of ten; none if the result is too large. A negative exponent below the table
of powers is taken in two or more steps. -/
def scale? : Nat → Float → Int → Option Float
  | 0, f, _ => some f
  | fuel + 1, f, e =>
    if e.natAbs ≤ 308 then
      if 0 ≤ e then
        let r := f * powerOfTen e.natAbs
        if r.isInf then none else some r
      else some (f / powerOfTen e.natAbs)
    else if f == 0.0 then some f
    else if 0 ≤ e then none
    else scale? fuel (f / powerOfTen 308) (e + 308)

/-- The largest exponent that is still counted. -/
def exponentLimit : Nat := UInt32.size / 2 - 1

/-- The binary number of a significand and a place, with the written exponent applied. -/
def real? (t : NumberToken) (significand : Nat) (place : Int) : Option Float :=
  let signed := fun (x : Float) => if t.negative then -x else x
  match t.exponent with
  | none => (scale? 8 (Float.ofNat significand) place).map signed
  | some (down, ds) =>
    let e := ds.foldl (fun n c => 10 * n + (c.toNat - 48)) 0
    if exponentLimit < e then
      if significand ≠ 0 ∧ !down then none else some (signed 0.0)
    else (scale? 8 (Float.ofNat significand) (if down then place - e else place + e)).map signed

/-- The number; none if it is too large. -/
def number? (t : NumberToken) : Option Number :=
  let (significand, excess) := gather 0 t.whole
  match t.fraction with
  | some fs =>
    let (full, dropped) := gather significand fs
    (t.real? full ((excess : Int) - ((fs.length - dropped : Nat) : Int))).map .real
  | none =>
    if t.exponent.isSome || 0 < excess then (t.real? significand excess).map .real
    else if !t.negative then some (.natural significand)
    else if significand = 0 ∨ UInt64.size / 2 < significand
      then some (.real (-(Float.ofNat significand)))
    else some (.negative (-(significand : Int)))

end NumberToken

namespace Written

/-- The rest of a text after blanks. -/
def skipBlanks (cs : List Char) : List Char :=
  cs.dropWhile fun c => c = ' ' || c = '\n' || c = '\t' || c = '\r'

/-- The exponent of a number, if one follows. -/
def exponent? : List Char → Option (Option (Bool × List Char) × List Char)
  | [] => some (none, [])
  | c :: cs =>
    if c = 'e' ∨ c = 'E' then
      let (down, rest) := match cs with
        | '-' :: r => (true, r)
        | '+' :: r => (false, r)
        | r => (false, r)
      let (ds, rest) := rest.span Char.isDigit
      if ds.isEmpty then none else some (some (down, ds), rest)
    else some (none, c :: cs)

/-- A number without its sign. -/
def unsigned? (negative : Bool) (cs : List Char) : Option (NumberToken × List Char) :=
  let (whole, rest) := cs.span Char.isDigit
  if whole.isEmpty || (whole.head? == some '0' && 1 < whole.length) then none
  else match rest with
    | '.' :: r =>
      let (fs, rest) := r.span Char.isDigit
      if fs.isEmpty then none
      else (exponent? rest).map fun (e, rest) => (⟨negative, whole, some fs, e⟩, rest)
    | r => (exponent? r).map fun (e, rest) => (⟨negative, whole, none, e⟩, rest)

/-- Four hexadecimal digits. -/
def fourHex? : List Char → Option (Nat × List Char)
  | a :: b :: c :: d :: rest => (Text.parseHex? [a, b, c, d]).map (·, rest)
  | _ => none

/-- The code that a one-letter escape stands for. -/
def escapeCode? (c : Char) : Option Nat :=
  if c = '"' ∨ c = '\\' ∨ c = '/' then some c.toNat
  else if c = 'b' then some 8
  else if c = 'f' then some 12
  else if c = 'n' then some 10
  else if c = 'r' then some 13
  else if c = 't' then some 9
  else none

/-- The codes of a string up to its closing quote, escapes resolved one by one. -/
def stringCodes? : Nat → List Char → Option (List Nat × List Char)
  | 0, _ => none
  | _, [] => none
  | fuel + 1, c :: cs =>
    if c = '"' then some ([], cs)
    else if c.toNat < 32 then none
    else if c = '\\' then
      match cs with
      | 'u' :: r => do
        let (code, r) ← fourHex? r
        let (codes, rest) ← stringCodes? fuel r
        return (code :: codes, rest)
      | e :: r => do
        let code ← escapeCode? e
        let (codes, rest) ← stringCodes? fuel r
        return (code :: codes, rest)
      | [] => none
    else do
      let (codes, rest) ← stringCodes? fuel cs
      return (c.toNat :: codes, rest)

/-- The characters of a list of codes; none if a surrogate stands alone. -/
def joinCodes? : List Nat → Option (List Char)
  | [] => some []
  | [n] => if 0xd800 ≤ n ∧ n ≤ 0xdfff then none else some [Char.ofNat n]
  | n :: m :: rest =>
    if 0xd800 ≤ n ∧ n ≤ 0xdbff ∧ 0xdc00 ≤ m ∧ m ≤ 0xdfff then
      (joinCodes? rest).map (Char.ofNat (0x10000 + (n - 0xd800) * 0x400 + (m - 0xdc00)) :: ·)
    else if 0xd800 ≤ n ∧ n ≤ 0xdfff then none
    else (joinCodes? (m :: rest)).map (Char.ofNat n :: ·)

/-- A string after its opening quote. -/
def string? (cs : List Char) : Option (Option String × List Char) :=
  (stringCodes? (cs.length + 1) cs).map fun (codes, rest) =>
    ((joinCodes? codes).map String.ofList, rest)

/-- The most containers that may be open around and including a readable one. -/
def depthLimit : Nat := 127

mutual

/-- A tree, with `depth` containers open around it. -/
def tree? : Nat → Nat → List Char → Option (Written × List Char)
  | 0, _, _ => none
  | fuel + 1, depth, cs =>
    match skipBlanks cs with
    | 'n' :: 'u' :: 'l' :: 'l' :: rest => some (.null, rest)
    | 't' :: 'r' :: 'u' :: 'e' :: rest => some (.bool true, rest)
    | 'f' :: 'a' :: 'l' :: 's' :: 'e' :: rest => some (.bool false, rest)
    | '"' :: rest => (string? rest).map fun (s, rest) => (.str s, rest)
    | '-' :: rest => (unsigned? true rest).map fun (t, rest) => (.num t.number?, rest)
    | '[' :: rest =>
      match skipBlanks rest with
      | ']' :: rest => some (.arr (depthLimit ≤ depth) [], rest)
      | rest => (trees? fuel (depth + 1) rest).map fun (ws, rest) =>
          (.arr (depthLimit ≤ depth) ws, rest)
    | '\x7b' :: rest =>
      match skipBlanks rest with
      | '\x7d' :: rest => some (.obj (depthLimit ≤ depth) [], rest)
      | rest => (pairs? fuel (depth + 1) rest).map fun (ms, rest) =>
          (.obj (depthLimit ≤ depth) ms, rest)
    | rest => (unsigned? false rest).map fun (t, rest) => (.num t.number?, rest)

/-- Trees with commas between them, up to the closing bracket. -/
def trees? : Nat → Nat → List Char → Option (List Written × List Char)
  | 0, _, _ => none
  | fuel + 1, depth, cs => do
    let (w, rest) ← tree? fuel depth cs
    match skipBlanks rest with
    | ',' :: rest => (trees? fuel depth rest).map fun (ws, rest) => (w :: ws, rest)
    | ']' :: rest => some ([w], rest)
    | _ => none

/-- Members with commas between them, up to the closing brace. -/
def pairs? : Nat → Nat → List Char → Option (List (Option String × Written) × List Char)
  | 0, _, _ => none
  | fuel + 1, depth, cs => do
    let (name, rest) ← match skipBlanks cs with
      | '"' :: r => string? r
      | _ => none
    let rest ← match skipBlanks rest with
      | ':' :: r => some r
      | _ => none
    let (w, rest) ← tree? fuel depth rest
    match skipBlanks rest with
    | ',' :: rest => (pairs? fuel depth rest).map fun (ms, rest) => ((name, w) :: ms, rest)
    | '\x7d' :: rest => some ([(name, w)], rest)
    | _ => none

end

/-- The tree of a text, which must hold nothing else. Each step of the parser uses up at least one
character, or opens the reading of a tree that does, so two per character are enough. -/
def parse? (text : String) : Option Written :=
  let cs := text.toList
  match tree? (2 * cs.length + 2) 0 cs with
  | some (w, rest) => if (skipBlanks rest).isEmpty then some w else none
  | none => none

end Written

/-- The value that a text writes. -/
def Json.parse? (text : String) : Option Json := (Written.parse? text).bind Written.value?

end GuardedWrites

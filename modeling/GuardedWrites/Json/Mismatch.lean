import GuardedWrites.Json.Printer
import GuardedWrites.Text.Quoted

/-!
# What is wrong with a value

A `Mismatch` says why a JSON value does not have the shape that was asked for. The checks `text?`,
`natBelow?` and `name?` find what is wrong with one value, and `Mismatch.message` words it.
-/

namespace GuardedWrites

/-- Why a value does not have the shape asked for: it is of another kind, a whole number out of
range, an object with other than one name in it, a name that is not known, or an object without a
member. -/
inductive Mismatch where
  | kind (found : Json) (wanted : String)
  | outOfRange (n : Int) (wanted : String)
  | notOneName
  | unknownName (name : String) (known : List String)
  | missing (member : String)

namespace Mismatch

/-- What is wrong with a value that should be a text. -/
def text? : Json → Option Mismatch
  | .str _ => none
  | v => some (.kind v "a string")

/-- What is wrong with a value that should be a natural number below `size`; `wanted` describes the
range. -/
def natBelow? (size : Nat) (wanted : String) : Json → Option Mismatch
  | .num (.natural n) => if n < size then none else some (.outOfRange n wanted)
  | .num (.negative n) => some (.outOfRange n wanted)
  | v => some (.kind v wanted)

/-- What is wrong with a value that should be one of some names: a text, or an object with null
under the name. -/
def name? (known : List String) : Json → Option Mismatch
  | .str s => if known.contains s then none else some (.unknownName s known)
  | .obj [(s, v)] =>
    if known.contains s then (if v.isNull then none else some (.kind v "unit"))
    else some (.unknownName s known)
  | .obj _ => some .notOneName
  | v => some (.kind v "string or map")

/-- A word of a message set apart as code. -/
def ticked (s : String) : String := "`" ++ s ++ "`"

/-- A value in a message: scalars are shown, lists and objects are named. -/
def shown : Json → String
  | .null => "null"
  | .bool b => "boolean " ++ ticked (Json.bool b).render
  | .num (.real x) => "floating point " ++ ticked (Number.real x).render
  | .num n => "integer " ++ ticked n.render
  | .str s => "string " ++ Text.quoted s
  | .arr _ => "sequence"
  | .obj _ => "map"

/-- The message of a mismatch. -/
def message : Mismatch → String
  | .kind found wanted => "invalid type: " ++ shown found ++ ", expected " ++ wanted
  | .outOfRange n wanted =>
    "invalid value: integer " ++ ticked (toString n) ++ ", expected " ++ wanted
  | .notOneName => "invalid value: map, expected map with a single key"
  | .unknownName name known =>
    "unknown variant " ++ ticked name ++ ", expected one of " ++ ", ".intercalate (known.map ticked)
  | .missing member => "missing field " ++ ticked member

end Mismatch

end GuardedWrites

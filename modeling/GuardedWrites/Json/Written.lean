import GuardedWrites.Json.Value

/-!
# JSON as it was written

A `Written` is the tree of a well-formed text before it is known what is wanted of it. A number may
be too large and a string may hold half of a surrogate pair; both are then kept as unreadable
leaves. A list or an object opened too deep is marked. A member that nobody asks for may be
unreadable; a value must be readable all the way down (`Written.value?`).
-/

namespace GuardedWrites

/-- A well-formed text as a tree. -/
inductive Written where
  | null
  | bool (b : Bool)
  | num (n : Option Number)
  | str (s : Option String)
  | arr (deep : Bool) (items : List Written)
  | obj (deep : Bool) (members : List (Option String × Written))

namespace Written

mutual

/-- The value of a tree that is readable all the way down. Of members with one name the last
counts. -/
def value? : Written → Option Json
  | .null => some .null
  | .bool b => some (.bool b)
  | .num n => n.map .num
  | .str s => s.map .str
  | .arr deep items => if deep then none else (items? items).map .arr
  | .obj deep members =>
    if deep then none else (members? members).map fun ms => .obj (Fields.ofList ms)

/-- The values of a list of trees. -/
def items? : List Written → Option (List Json)
  | [] => some []
  | w :: rest => do
    let v ← w.value?
    let vs ← items? rest
    return v :: vs

/-- The names and values of a list of members. -/
def members? : List (Option String × Written) → Option (List (String × Json))
  | [] => some []
  | (name, w) :: rest => do
    let n ← name
    let v ← w.value?
    let vs ← members? rest
    return (n, v) :: vs

end

mutual

/-- The tree of a value. -/
def ofJson : Json → Written
  | .null => .null
  | .bool b => .bool b
  | .num n => .num (some n)
  | .str s => .str (some s)
  | .arr items => .arr false (ofItems items)
  | .obj members => .obj false (ofMembers members)

/-- The trees of a list of values. -/
def ofItems : List Json → List Written
  | [] => []
  | v :: rest => ofJson v :: ofItems rest

/-- The trees of a list of members. -/
def ofMembers : List (String × Json) → List (Option String × Written)
  | [] => []
  | (name, v) :: rest => (some name, ofJson v) :: ofMembers rest

end

end Written

end GuardedWrites

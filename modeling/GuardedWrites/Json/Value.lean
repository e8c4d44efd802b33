/-!
# JSON values

`Json` is a tree of values whose numbers keep their kind: a natural number below `2^64`, a negative
whole number, or a binary number. `Fields` are the members of an object that holds data: one
value per name, in ascending order of the names.

* `Fields.get?_insert` — what a look-up finds after a member was stored;
* `Fields.get?_erase` — and after one was removed.
-/

namespace GuardedWrites

/-- A number by kind. -/
inductive Number where
  | natural (n : Nat)
  | negative (n : Int)
  | real (x : Float)

/-- A JSON value. -/
inductive Json where
  | null
  | bool (b : Bool)
  | num (n : Number)
  | str (s : String)
  | arr (items : List Json)
  | obj (members : List (String × Json))

instance : Inhabited Json := ⟨.null⟩

namespace Json

/-- A natural number as a value. -/
def ofNat (n : Nat) : Json := .num (.natural n)

/-- A binary number as a value. -/
def ofFloat (x : Float) : Json := .num (.real x)

/-- A value that may be missing. -/
def ofOption {α : Type} (write : α → Json) : Option α → Json
  | none => .null
  | some a => write a

/-- Whether a value is null. -/
def isNull : Json → Bool
  | .null => true
  | _ => false

end Json

/-- The members of an object that holds data. -/
abbrev Fields := List (String × Json)

namespace Fields

/-- The value under a name. -/
def get? (name : String) : Fields → Option Json
  | [] => none
  | (other, v) :: rest => if other = name then some v else get? name rest

/-- Stores a value under a name, in place of an older one or where the order of names puts it. -/
def insert (name : String) (value : Json) : Fields → Fields
  | [] => [(name, value)]
  | (other, v) :: rest =>
    if other = name then (name, value) :: rest
    else if name < other then (name, value) :: (other, v) :: rest
    else (other, v) :: insert name value rest

/-- Removes the member under a name. -/
def erase (name : String) (fs : Fields) : Fields := fs.filter fun m => m.1 != name

/-- Whether there is a member under a name. -/
def has (name : String) (fs : Fields) : Bool := fs.any fun m => m.1 == name

/-- Members in the given order, later ones in place of earlier ones of the same name. -/
def ofList (members : List (String × Json)) : Fields :=
  members.foldl (fun fs m => fs.insert m.1 m.2) []

/-- Stores every member of `patch`. -/
def merge (fs patch : Fields) : Fields := patch.foldl (fun fs m => fs.insert m.1 m.2) fs

theorem get?_insert (name other : String) (value : Json) (fs : Fields) :
    get? other (insert name value fs) = if name = other then some value else get? other fs := by
  induction fs with
  | nil => simp [insert, get?]
  | cons m rest ih =>
    obtain ⟨key, v⟩ := m
    by_cases hk : key = name
    · subst hk
      simp only [insert, if_true, get?]
      split <;> rfl
    · by_cases hl : name < key
      · simp [insert, hk, hl, get?]
      · simp only [insert, hk, hl, if_false, get?, ih]
        by_cases hn : name = other
        · subst hn
          simp [hk]
        · simp [hn]

theorem get?_erase (name other : String) (fs : Fields) :
    get? other (erase name fs) = if name = other then none else get? other fs := by
  induction fs with
  | nil => simp [erase, get?]
  | cons m rest ih =>
    obtain ⟨key, v⟩ := m
    simp only [erase] at ih
    by_cases hk : key = name
    · subst hk
      simp only [erase, List.filter_cons, bne_self_eq_false, Bool.false_eq_true, if_false, ih, get?]
      split <;> rfl
    · have hb : (key != name) = true := by simpa using hk
      simp only [erase, List.filter_cons, hb, if_true, get?, ih]
      by_cases hn : name = other
      · subst hn
        simp [hk]
      · simp [hn]

theorem has_eq_isSome (name : String) (fs : Fields) : has name fs = (get? name fs).isSome := by
  induction fs with
  | nil => rfl
  | cons m rest ih =>
    obtain ⟨key, v⟩ := m
    simp only [has] at ih
    by_cases hk : key = name
    · simp [has, get?, hk]
    · simp [has, get?, hk, ih]

end Fields

end GuardedWrites

/-!
# Glob patterns

A server matches keys against patterns in which some characters are special: `*` stands for any
text, `?` for any character, brackets hold a class of characters, and a backslash makes the next
character stand for itself. `Glob.escape` makes a text stand for itself in a pattern.

* `Glob.Matches` — which texts a pattern matches, with one equivalence for each way a pattern
  begins;
* `Glob.matches_escapeChars_append_iff` — an escaped text matches itself and nothing else, whatever
  follows it.
-/

namespace GuardedWrites.KeyValue.Glob

/-! ### Matching -/

/-- Characters between two ends, given in either order. -/
structure Range where
  first : Char
  last : Char
deriving DecidableEq

/-- Whether a character lies between the ends. -/
def Range.holds (r : Range) (c : Char) : Bool :=
  (r.first ≤ c && c ≤ r.last) || (r.last ≤ c && c ≤ r.first)

/-- The ranges written up to the closing bracket of a class, and what follows it. -/
def ranges : List Char → List Range × List Char
  | [] => ([], [])
  | ']' :: rest => ([], rest)
  | '\\' :: c :: rest => (⟨c, c⟩ :: (ranges rest).1, (ranges rest).2)
  | a :: '-' :: b :: rest => (⟨a, b⟩ :: (ranges rest).1, (ranges rest).2)
  | c :: rest => (⟨c, c⟩ :: (ranges rest).1, (ranges rest).2)

/-- The test that a class makes, and what follows the class. A caret at its start turns the test
around. -/
def classTest : List Char → (Char → Bool) × List Char
  | '^' :: rest => (fun c => !(ranges rest).1.any (·.holds c), (ranges rest).2)
  | rest => (fun c => (ranges rest).1.any (·.holds c), (ranges rest).2)

/-- The texts that a pattern matches. -/
inductive Matches : List Char → List Char → Prop where
  | nothing : Matches [] []
  | anyText (skipped : List Char) {p s : List Char} :
      Matches p s → Matches ('*' :: p) (skipped ++ s)
  | anyChar (c : Char) {p s : List Char} : Matches p s → Matches ('?' :: p) (c :: s)
  | oneOf (c : Char) {p s : List Char} :
      (classTest p).1 c = true → Matches (classTest p).2 s → Matches ('[' :: p) (c :: s)
  | quoted (c : Char) {p s : List Char} : Matches p s → Matches ('\\' :: c :: p) (c :: s)
  | itself (c : Char) {p s : List Char} :
      c ≠ '*' → c ≠ '?' → c ≠ '[' → (c = '\\' → p = []) → Matches p s → Matches (c :: p) (c :: s)

variable {a p s : List Char} {c : Char}

theorem matches_nil_iff : Matches [] s ↔ s = [] := by
  constructor
  · intro h
    cases h
    rfl
  · rintro rfl
    exact .nothing

theorem matches_anyText_iff :
    Matches ('*' :: p) s ↔ ∃ skipped t, s = skipped ++ t ∧ Matches p t := by
  constructor
  · intro h
    cases h with
    | anyText skipped h => exact ⟨skipped, _, rfl, h⟩
    | itself _ hs => exact absurd rfl hs
  · rintro ⟨skipped, t, rfl, h⟩
    exact .anyText skipped h

theorem matches_anyChar_iff : Matches ('?' :: p) s ↔ ∃ c t, s = c :: t ∧ Matches p t := by
  constructor
  · intro h
    cases h with
    | anyChar c h => exact ⟨c, _, rfl, h⟩
    | itself _ _ hq => exact absurd rfl hq
  · rintro ⟨c, t, rfl, h⟩
    exact .anyChar c h

theorem matches_oneOf_iff :
    Matches ('[' :: p) s ↔ ∃ c t, s = c :: t ∧ (classTest p).1 c = true ∧
    Matches (classTest p).2 t := by
  constructor
  · intro h
    cases h with
    | oneOf c hc h => exact ⟨c, _, rfl, hc, h⟩
    | itself _ _ _ ho => exact absurd rfl ho
  · rintro ⟨c, t, rfl, hc, h⟩
    exact .oneOf c hc h

theorem matches_quoted_iff : Matches ('\\' :: c :: p) s ↔ ∃ t, s = c :: t ∧ Matches p t := by
  constructor
  · intro h
    cases h with
    | quoted c h => exact ⟨_, rfl, h⟩
    | itself _ _ _ _ hb => exact absurd (hb rfl) (List.cons_ne_nil _ _)
  · rintro ⟨t, rfl, h⟩
    exact .quoted c h

theorem matches_itself_iff (hs : c ≠ '*') (hq : c ≠ '?') (ho : c ≠ '[') (hb : c = '\\' → p = []) :
    Matches (c :: p) s ↔ ∃ t, s = c :: t ∧ Matches p t := by
  constructor
  · intro h
    cases h with
    | anyText _ _ => exact absurd rfl hs
    | anyChar _ _ => exact absurd rfl hq
    | oneOf _ _ _ => exact absurd rfl ho
    | quoted _ _ => exact absurd (hb rfl) (List.cons_ne_nil _ _)
    | itself _ _ _ _ _ h => exact ⟨_, rfl, h⟩
  · rintro ⟨t, rfl, h⟩
    exact .itself c hs hq ho hb h

/-- Only a pattern that begins with any text matches the empty text. -/
theorem Matches.ne_nil (h : Matches (c :: p) s) (hs : c ≠ '*') : s ≠ [] := by
  cases h with
  | anyText _ _ => exact absurd rfl hs
  | anyChar _ _ => exact List.cons_ne_nil _ _
  | oneOf _ _ _ => exact List.cons_ne_nil _ _
  | quoted _ _ => exact List.cons_ne_nil _ _
  | itself _ _ _ _ _ _ => exact List.cons_ne_nil _ _

/-! ### Escaping -/

/-- Whether a character is special in a pattern. -/
def isSpecial (c : Char) : Bool := c = '*' || c = '?' || c = '[' || c = ']' || c = '\\'

/-- The characters with a backslash before each special one. -/
def escapeChars : List Char → List Char
  | [] => []
  | c :: rest => if isSpecial c then '\\' :: c :: escapeChars rest else c :: escapeChars rest

/-- The text as a pattern that matches it alone. -/
def escape (s : String) : String := String.ofList (escapeChars s.toList)

/-- The pattern of the keys that start with `a` and then `b`. -/
def startingWith (a b : String) : String := escape a ++ escape b ++ "*"

theorem matches_escapeChars_cons_iff :
    Matches (escapeChars (c :: a) ++ p) s ↔ ∃ t, s = c :: t ∧ Matches (escapeChars a ++ p) t := by
  by_cases h : isSpecial c
  · rw [escapeChars, if_pos h]
    exact matches_quoted_iff
  · rw [escapeChars, if_neg h]
    simp only [isSpecial, Bool.or_eq_true, decide_eq_true_eq, not_or] at h
    obtain ⟨⟨⟨⟨hs, hq⟩, ho⟩, _⟩, hb⟩ := h
    exact matches_itself_iff hs hq ho fun e => absurd e hb

/-- An escaped text matches itself and nothing else, whatever follows it. -/
theorem matches_escapeChars_append_iff :
    Matches (escapeChars a ++ p) s ↔ ∃ t, s = a ++ t ∧ Matches p t := by
  induction a generalizing s with
  | nil => simp [escapeChars]
  | cons c a ih =>
    rw [matches_escapeChars_cons_iff]
    constructor
    · rintro ⟨t, rfl, h⟩
      obtain ⟨u, rfl, hu⟩ := ih.1 h
      exact ⟨u, rfl, hu⟩
    · rintro ⟨u, rfl, h⟩
      exact ⟨a ++ u, rfl, ih.2 ⟨u, rfl, h⟩⟩

end GuardedWrites.KeyValue.Glob

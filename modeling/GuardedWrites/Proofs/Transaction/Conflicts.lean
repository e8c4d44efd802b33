import GuardedWrites.Transaction.Conflict

/-!
# What a message tells of a conflict

The classifier looks at the code of an error and then, whatever the code was, for fragments in its
message. The message of a unique violation holds a table and an id as they are, so both are searched
too.

* `Text.occursIn_iff` — the search finds the contiguous parts of a text;
* `Conflict.tells` — a text has one of the fragments in it;
* `Conflict.classify_eq_retryable_iff` — which errors are worth another attempt;
* `Conflict.tells_append`, `Conflict.classify_uniqueViolation_iff` — where the fragments of a
  message made of parts can be.
-/

namespace GuardedWrites

namespace Text

theorem occursIn_iff (part whole : List Char) : occursIn part whole = true ↔ part <:+: whole := by
  induction whole with
  | nil => simp [occursIn]
  | cons c cs ih =>
    rw [occursIn, Bool.or_eq_true, ih, List.isPrefixOf_iff_prefix, List.infix_cons_iff]

theorem fold_append (s t : String) : fold (s ++ t) = fold s ++ fold t := by
  simp only [fold, String.toList_append, List.flatMap_append]

/-- What does not contain a character cannot reach across it. -/
theorem infix_across {part : List Char} {c : Char} (hc : c ∉ part) (before after : List Char) :
    part <:+: before ++ c :: after ↔ part <:+: before ∨ part <:+: after := by
  -- A part that begins at the character or before it, and goes on after it, contains it.
  have hreach : ∀ l l', part = l ++ l' → l' <+: c :: after → l' = [] := by
    intro l l' hpart hl'
    rcases List.prefix_cons_iff.1 hl' with hnil | ⟨t, ht, -⟩
    · exact hnil
    · exact absurd (by simp [hpart, ht]) hc
  constructor
  · intro h
    rcases List.infix_append_iff.1 h with hbefore | hafter | ⟨l, l', hpart, hl, hl'⟩
    · exact .inl hbefore
    · rcases List.infix_cons_iff.1 hafter with hhead | hafter
      · exact .inl (hreach [] part rfl hhead ▸ List.nil_infix)
      · exact .inr hafter
    · rw [hpart, hreach l l' hpart hl', List.append_nil]
      exact .inl hl.isInfix
  · rintro (hbefore | hafter)
    · exact List.infix_append_iff.2 (.inl hbefore)
    · exact List.infix_append_iff.2 (.inr (.inl (List.infix_cons_iff.2 (.inr hafter))))

/-- What begins with none of the characters of a gap is found behind it or not at all. -/
theorem infix_behind {part gap : List Char} (hgap : ∀ c ∈ gap, part.head? ≠ some c)
    (after : List Char) :
    part <:+: gap ++ after ↔ part <:+: after := by
  induction gap with
  | nil => rfl
  | cons c gap ih =>
    rw [List.cons_append, List.infix_cons_iff, ih fun c' hc' => hgap c' (.tail c hc')]
    refine ⟨fun h => h.elim (fun hhead => ?_) id, .inr⟩
    rcases List.prefix_cons_iff.1 hhead with hnil | ⟨t, ht, -⟩
    · exact hnil ▸ List.nil_infix
    · exact absurd (by simp [ht]) (hgap c List.mem_cons_self)

end Text

namespace Conflict

/-- Whether a text has, in any case, a fragment in it by which the message of a passing conflict is
known. -/
def tells (s : String) : Bool := fragments.any fun f => Text.occursIn f.toList (Text.fold s)

theorem tells_iff (s : String) : tells s = true ↔ ∃ f ∈ fragments, f.toList <:+: Text.fold s := by
  simp only [tells, List.any_eq_true, Text.occursIn_iff]

/-- An error is worth another attempt by its code or by its message, and no code speaks against the
message. -/
theorem classify_eq_retryable_iff (e : StoreError) :
    classify e = .retryable ↔ (∃ c, e.code = some c ∧ c ∈ codes) ∨ tells e.message = true := by
  have hclass : classify e =
      if (e.code.any fun c => codes.contains c) || tells e.message then .retryable else .fatal := by
    unfold classify tells
    cases e.code.any fun c => codes.contains c <;> rfl
  have hcode : (e.code.any fun c => codes.contains c) = true ↔
      ∃ c, e.code = some c ∧ c ∈ codes := by
    simp [Option.any_eq_true]
  rw [hclass, ← hcode, ← Bool.or_eq_true]
  split <;> simp_all

/-- A fragment lies on one side of a separator whose first character is in no fragment, and whose
other ones begin none. -/
theorem tells_append (c : Char) (gap : List Char) {sep : String} (hsep : Text.fold sep = c :: gap)
    (hc : ∀ f ∈ fragments, c ∉ f.toList)
    (hgap : ∀ f ∈ fragments, ∀ g ∈ gap, f.toList.head? ≠ some g) (s t : String) :
    tells (s ++ sep ++ t) = true ↔ tells s = true ∨ tells t = true := by
  have hpart : ∀ f ∈ fragments, (f.toList <:+: Text.fold (s ++ sep ++ t) ↔
      f.toList <:+: Text.fold s ∨ f.toList <:+: Text.fold t) := by
    intro f hf
    rw [Text.fold_append, Text.fold_append, hsep, List.append_assoc, List.cons_append,
      Text.infix_across (hc f hf), Text.infix_behind (hgap f hf)]
  simp only [tells_iff]
  constructor
  · rintro ⟨f, hf, h⟩
    exact ((hpart f hf).1 h).imp (fun h => ⟨f, hf, h⟩) fun h => ⟨f, hf, h⟩
  · rintro (⟨f, hf, h⟩ | ⟨f, hf, h⟩)
    · exact ⟨f, hf, (hpart f hf).2 (.inl h)⟩
    · exact ⟨f, hf, (hpart f hf).2 (.inr h)⟩

/-- The error of a key that is taken is worth another attempt exactly if the table or the id tells
of a conflict: its own code and words do not. -/
theorem classify_uniqueViolation_iff (table id : String) :
    classify (.uniqueViolation (table ++ ".id = " ++ id)) = .retryable ↔
      tells table = true ∨ tells id = true := by
  have hmessage : (StoreError.uniqueViolation (table ++ ".id = " ++ id)).message =
      "duplicate key" ++ ": " ++ (table ++ "." ++ ("id " ++ "= " ++ id)) := by
    simp [StoreError.uniqueViolation, ← String.toList_inj]
  have hcode : ¬ ∃ c, (StoreError.uniqueViolation (table ++ ".id = " ++ id)).code = some c ∧
      c ∈ codes := by
    rintro ⟨c, hc, hmem⟩
    cases hc
    exact absurd hmem (by decide)
  have hkey : tells "duplicate key" = false := by decide
  have hid : tells "id " = false := by decide
  rw [classify_eq_retryable_iff, hmessage,
    tells_append ':' [' '] (by decide) (by decide) (by simp [fragments]),
    tells_append '.' [] (by decide) (by decide) (by simp [fragments]),
    tells_append '=' [' '] (by decide) (by decide) (by simp [fragments]), hkey, hid]
  simp [hcode]

end Conflict

end GuardedWrites

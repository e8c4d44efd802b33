import GuardedWrites.Rate.Limiter

/-!
# How slots are named

The slot of a rule is named by the key and the label of the rule, with a colon between them. Keys
and labels may hold colons themselves, so one name can come from several pairs.

* `Limiter.Clash` — two keys and labels of which one name comes, as
  `LimiterSettings.storeKey_eq_iff` says;
* `LimiterSettings.startsWith_storeStart` — the names that a reset of a key reaches are those of the
  key with any label.
-/

namespace GuardedWrites

namespace Slots

theorem startsWith_iff (start key : String) :
    startsWith start key = true ↔ ∃ rest, key = start ++ rest := by
  rw [startsWith, List.isPrefixOf_iff_prefix]
  constructor
  · rintro ⟨rest, h⟩
    refine ⟨String.ofList rest, String.toList_inj.1 ?_⟩
    rw [String.toList_append, String.toList_ofList, h]
  · rintro ⟨rest, rfl⟩
    rw [String.toList_append]
    exact List.prefix_append _ _

end Slots

theorem toList_colon (a x : String) : (a ++ ":" ++ x).toList = a.toList ++ ':' :: x.toList := by
  rw [String.toList_append, String.toList_append, List.append_assoc]
  rfl

/-- A text that goes on behind a first cut either ends there or goes on to a later colon. -/
theorem exists_colon_of_longer {a b x y : String} {rest : List Char}
    (hb : b.toList = a.toList ++ rest) (hx : ':' :: x.toList = rest ++ ':' :: y.toList) :
    a = b ∧ x = y ∨ ∃ z, b = a ++ ":" ++ z ∧ x = z ++ ":" ++ y := by
  cases rest with
  | nil =>
    rw [List.append_nil] at hb
    exact .inl ⟨String.toList_inj.1 hb.symm, String.toList_inj.1 (List.cons.inj hx).2⟩
  | cons c rest =>
    obtain ⟨rfl, htail⟩ := List.cons.inj hx
    refine .inr ⟨String.ofList rest, String.toList_inj.1 ?_, String.toList_inj.1 ?_⟩
    · rw [toList_colon, String.toList_ofList, hb]
    · rw [toList_colon, String.toList_ofList]
      exact htail

/-- Two texts cut in two at a colon are equal if they are cut at one place, or one goes on to a
later colon. -/
theorem colon_append_eq_iff {a b x y : String} : a ++ ":" ++ x = b ++ ":" ++ y ↔
    a = b ∧ x = y ∨ (∃ z, b = a ++ ":" ++ z ∧ x = z ++ ":" ++ y) ∨
      ∃ z, a = b ++ ":" ++ z ∧ y = z ++ ":" ++ x := by
  constructor
  · intro h
    have hlist := congrArg String.toList h
    rw [toList_colon, toList_colon] at hlist
    rcases List.append_eq_append_iff.1 hlist with ⟨rest, hb, hx⟩ | ⟨rest, ha, hy⟩
    · rcases exists_colon_of_longer hb hx with h | h
      · exact .inl h
      · exact .inr (.inl h)
    · rcases exists_colon_of_longer ha hy with ⟨hb, hx⟩ | h
      · exact .inl ⟨hb.symm, hx.symm⟩
      · exact .inr (.inr h)
  · rintro (⟨rfl, rfl⟩ | ⟨z, rfl, rfl⟩ | ⟨z, rfl, rfl⟩)
    · rfl
    · simp only [String.append_assoc]
    · simp only [String.append_assoc]

/-- One key is the other with more behind a colon, and the label of the shorter one makes up for it
by beginning so. -/
def Limiter.Clash (key' label' key label : String) : Prop :=
  (∃ x, key = key' ++ ":" ++ x ∧ label' = x ++ ":" ++ label) ∨ ∃ x, key' = key ++ ":" ++ x ∧
  label = x ++ ":" ++ label'

namespace LimiterSettings

variable {cfg : LimiterSettings} {key key' label label' : String}

/-- Two keys have one slot under labels that clash. -/
theorem storeKey_eq_iff (hne : key' ≠ key) :
    cfg.storeKey key' label' = cfg.storeKey key label ↔ Limiter.Clash key' label' key label := by
  have hname : ∀ key label, cfg.storeKey key label = cfg.config.keyPrefix ++
      (key ++ ":" ++ label) := by
    intro key label
    simp only [storeKey, String.append_assoc]
  rw [hname, hname, String.append_right_inj, colon_append_eq_iff, Limiter.Clash,
    or_iff_right fun h => hne h.1]

/-- Under one key the label tells the slot. -/
theorem label_eq_of_storeKey_eq (h : cfg.storeKey key label = cfg.storeKey key label') :
    label = label' := by
  rw [storeKey, storeKey, String.append_right_inj] at h
  exact h

/-- A reset of a key reaches the slots of the key under any label. -/
theorem startsWith_storeStart {name : String} :
    Slots.startsWith (cfg.storeStart key) name = true ↔ ∃ label, name = cfg.storeKey key label :=
  Slots.startsWith_iff _ _

end LimiterSettings

end GuardedWrites

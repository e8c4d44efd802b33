import GuardedWrites.Time.Moment

/-!
# Order of moments and spans

The time that has passed since a moment grows with the reading and shrinks with the moment.
Everything that compares an age with a time to live rests on this.

* `Moment.elapsed_le_elapsed` — an earlier moment, at a later reading, is the older one;
* `Moment.elapsed_lt_of_lt_later` — ages within a span are shorter than the span;
* `Moment.exists_first` — readings that do not step back have a first one.
-/

namespace GuardedWrites

theorem Span.not_le {a b : Span} : ¬ a ≤ b ↔ b < a := Nat.not_le

theorem Span.not_lt {a b : Span} : ¬ a < b ↔ b ≤ a := Nat.not_lt

theorem Span.le_trans {a b c : Span} (h : a ≤ b) (k : b ≤ c) : a ≤ c := Nat.le_trans h k

theorem Span.lt_of_le_of_lt {a b c : Span} (h : a ≤ b) (k : b < c) : a < c := Nat.lt_of_le_of_lt h k

theorem Moment.le_latest_left (a b : Moment) : a ≤ a.latest b := by
  unfold latest
  split
  · assumption
  · exact le_refl a

theorem Moment.le_latest_right (a b : Moment) : b ≤ a.latest b := by
  unfold latest
  split
  · exact le_refl b
  · exact le_of_not_le ‹_›

/-- The time since a later moment, at an earlier reading, is no longer. -/
theorem Moment.elapsed_le_elapsed {a a' t t' : Moment} (ha : a ≤ a') (ht : t ≤ t') :
    a'.elapsed t ≤ a.elapsed t' := by
  have ha : a.nanos ≤ a'.nanos := ha
  have ht : t.nanos ≤ t'.nanos := ht
  show min (t.nanos - a'.nanos).toNat spanLimit ≤ min (t'.nanos - a.nanos).toNat spanLimit
  omega

/-- Of two moments the earlier one is past a time to live first: there is a reading at which only it
is. -/
theorem Moment.exists_reading {a a' now : Moment} {ttl : Span} (h : a' < a)
    (hn : a.elapsed now < ttl) :
    ∃ t, now ≤ t ∧ a.elapsed t < ttl ∧ ttl ≤ a'.elapsed t := by
  have h : a'.nanos < a.nanos := h
  have hn : min (now.nanos - a.nanos).toNat spanLimit < ttl.nanos := hn
  have hl := ttl.le_limit
  refine ⟨⟨max now.nanos (a'.nanos + ttl.nanos)⟩, Int.le_max_left _ _, ?_, ?_⟩
  · show min (max now.nanos (a'.nanos + ttl.nanos) - a.nanos).toNat spanLimit < ttl.nanos
    omega
  · show ttl.nanos ≤ min (max now.nanos (a'.nanos + ttl.nanos) - a'.nanos).toNat spanLimit
    omega

/-- Two moments of one half-open interval are less than its length apart. -/
theorem Moment.elapsed_lt_of_lt_later {start a t : Moment} {d : Span} (ha : start ≤ a)
    (hs : start ≤ t) (ht : t < start.later d) :
    a.elapsed t < d := by
  have ha : start.nanos ≤ a.nanos := ha
  have hs : start.nanos ≤ t.nanos := hs
  have ht : t.nanos < start.nanos + d.nanos := ht
  show min (t.nanos - a.nanos).toNat spanLimit < d.nanos
  omega

/-- Readings that do not step back do not do so from their first one either. -/
theorem Moment.exists_first {ts : List Moment} (h : ts.Pairwise (· ≤ ·)) :
    ∃ t, (t :: ts).Pairwise (· ≤ ·) := by
  cases ts with
  | nil => exact ⟨.epoch, List.pairwise_singleton _ _⟩
  | cons t ts =>
    refine ⟨t, List.pairwise_cons.2 ⟨fun x hx => ?_, h⟩⟩
    rcases List.mem_cons.1 hx with rfl | hx
    · exact le_refl x
    · exact (List.pairwise_cons.1 h).1 x hx

end GuardedWrites

import GuardedWrites.Rate.Outcome
import GuardedWrites.Rate.Rule
import GuardedWrites.Time.Moment

/-!
# Sliding windows

A `Window` holds the moments of admitted requests in ascending order. A hit first forgets the
moments that are a whole window old, then admits and records the request if fewer than the limit are
left. A denied hit records nothing.

* `Window.hit` — judges a request and changes the window;
* `Window.status` — reads the counts and changes nothing.
-/

namespace GuardedWrites

/-- Puts a moment behind the last one that is not after it. -/
def Moment.insertInto (t : Moment) : List Moment → List Moment
  | [] => [t]
  | a :: rest => if a ≤ t then a :: t.insertInto rest else t :: a :: rest

theorem Moment.mem_insertInto {t x : Moment} {ts : List Moment} :
    x ∈ t.insertInto ts ↔ x = t ∨ x ∈ ts := by
  induction ts with
  | nil => simp [insertInto]
  | cons a rest ih =>
    by_cases h : a ≤ t
    · simp only [insertInto, h, if_true, List.mem_cons, ih]
      exact ⟨fun m => m.elim (fun e => .inr (.inl e)) (fun m => m.elim .inl fun m => .inr (.inr m)),
        fun m => m.elim (fun e => .inr (.inl e)) (fun m => m.elim .inl fun m => .inr (.inr m))⟩
    · simp [insertInto, h]

theorem Moment.sorted_insertInto (t : Moment) {ts : List Moment} (h : ts.Pairwise (· ≤ ·)) :
    (t.insertInto ts).Pairwise (· ≤ ·) := by
  induction ts with
  | nil => simp [insertInto]
  | cons a rest ih =>
    obtain ⟨ha, hr⟩ := List.pairwise_cons.1 h
    by_cases hle : a ≤ t
    · simp only [insertInto, hle, if_true]
      refine List.pairwise_cons.2 ⟨fun x hx => ?_, ih hr⟩
      rcases mem_insertInto.1 hx with e | m
      · exact e ▸ hle
      · exact ha x m
    · simp only [insertInto, hle, if_false]
      refine List.pairwise_cons.2 ⟨fun x hx => ?_, h⟩
      have hta : t ≤ a := le_of_not_le hle
      rcases List.mem_cons.1 hx with e | m
      · exact e ▸ hta
      · exact le_trans hta (ha x m)

/-- The moments of admitted requests, in ascending order. -/
structure Window where
  entries : List Moment
  sorted : entries.Pairwise (· ≤ ·)

namespace Window

/-- The window in which nothing was admitted. -/
def empty : Window := ⟨[], .nil⟩

/-- Records a moment in its place. -/
def record (w : Window) (t : Moment) : Window :=
  ⟨t.insertInto w.entries, t.sorted_insertInto w.sorted⟩

/-- The window of moments in any order. -/
def ofList (ts : List Moment) : Window := ts.foldl record empty

/-- Forgets the moments, oldest first, that are at least `window` old. -/
def prune (w : Window) (window : Span) (now : Moment) : Window :=
  ⟨w.entries.dropWhile fun t => window ≤ t.elapsed now, w.sorted.sublist (List.dropWhile_sublist _)⟩

/-- The moments less than `window` old. -/
def live (w : Window) (window : Span) (now : Moment) : List Moment :=
  w.entries.filter fun t => t.elapsed now < window

/-- The time until `oldest` has left the window. -/
def wait (oldest : Option Moment) (window : Span) (now : Moment) : Span :=
  match oldest with
  | none => .zero
  | some t => window.sub (t.elapsed now)

/-- Judges a request at `now`. -/
def hit (w : Window) (l : WindowLimit) (now : Moment) : Outcome × Window :=
  let kept := w.prune l.window now
  let count := kept.entries.length
  if count < l.max then (.allow (l.max - count - 1), kept.record now)
  else (.deny (wait kept.entries.head? l.window now), kept)

/-- The counts at `now`. -/
def status (w : Window) (l : WindowLimit) (label : String) (now : Moment) : RuleStatus :=
  let alive := w.live l.window now
  let used := alive.length
  let remaining := l.max - used
  { label := label
    limit := l.max
    used := used
    remaining := remaining
    retryAfterSecs := (if 0 < remaining then Span.zero else wait alive.head? l.window now).seconds }

/-- The latest moment. -/
def newest? (w : Window) : Option Moment := w.entries.getLast?

end Window

end GuardedWrites

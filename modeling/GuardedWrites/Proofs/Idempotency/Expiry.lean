import GuardedWrites.Proofs.Idempotency.OneKey

/-!
# Sweeps are unseen

A store of records drops what is past its time when it is read, when it is claimed, after so many
writes, and when it is asked to. Who only reads and claims cannot tell: the answers are those of a
map that drops nothing by itself and merely takes no notice of what is past its time. The reason is
that a record past its time stays so as long as the clock does not step back.

* `Lasting` — the map that drops nothing, with the same requests;
* `RecordStore.Turn` — a request, or a sweep that is asked for;
* `Records.Alike.step`, `Records.Alike.purge` — after a request and after a sweep, store and map
  show the same alive;
* `Records.sweeps_unseen` — every run, with any interval between counted sweeps.
-/

namespace GuardedWrites

/-- A map of records from which nothing disappears by itself. -/
def Lasting := String → Option StoredRecord

namespace Lasting

/-- The map without records. -/
def nothing : Lasting := fun _ => none

/-- The record under a key, if it is still alive. -/
def live? (m : Lasting) (now : Moment) (key : String) : Option StoredRecord :=
  (m key).filter fun x => !x.isExpired now

/-- The map with another record, or none, under a key. -/
def set (m : Lasting) (key : String) (x : Option StoredRecord) : Lasting :=
  fun k => if key = k then x else m k

/-- Answers a request at a clock reading. -/
def step (now : Moment) (m : Lasting) : (r : RecordStore.Request) → RecordStore.Result r × Lasting
  | .get key => ((m.live? now key).map (·.record), m)
  | .put record ttl => ((), m.set record.key (some ⟨record, ttl⟩))
  | .putIfAbsent record ttl =>
    if (m.live? now record.key).isSome
      then (false, m) else (true, m.set record.key (some ⟨record, ttl⟩))
  | .remove key => ((), m.set key none)

end Lasting

namespace RecordStore

/-- What happens to a store: a request, or a sweep that is asked for. A sweep that reads the clock
later than the write that it follows is a turn of its own. -/
inductive Turn where
  | request (r : Request)
  | sweep

/-- A turn that replaces or removes the record of a key, whatever it is. -/
def Turn.Displaces (key : String) : Turn → Prop
  | .request r => r.Displaces key
  | .sweep => False

/-- A request with its answer. -/
structure Answered where
  request : Request
  result : Result request

/-- The requests of a run, each with the reading of the clock. -/
def asked (turns : List (Moment × Turn)) : List (Moment × Request) :=
  turns.filterMap fun
    | (now, .request r) => some (now, r)
    | (_, .sweep) => none

end RecordStore

open RecordStore (Turn Answered asked)

namespace Records

/-- The store after a turn at a clock reading. -/
def turn (now : Moment) (s : Records) : Turn → Records
  | .request r => (s.step now r).2
  | .sweep => (s.purge now).2

/-- The store after some turns. -/
def run (s : Records) (turns : List (Moment × Turn)) : Records :=
  turns.foldl (fun s e => s.turn e.1 e.2) s

/-- The requests among some turns, each with its answer. -/
def transcript : Records → List (Moment × Turn) → List Answered
  | _, [] => []
  | s, (now, .request r) :: rest => ⟨r, (s.step now r).1⟩ :: transcript (s.step now r).2 rest
  | s, (now, .sweep) :: rest => transcript (s.purge now).2 rest

end Records

namespace Lasting

/-- The map after some requests. -/
def run (m : Lasting) (requests : List (Moment × RecordStore.Request)) : Lasting :=
  requests.foldl (fun m e => (m.step e.1 e.2).2) m

/-- Some requests, each with its answer. -/
def transcript : Lasting → List (Moment × RecordStore.Request) → List Answered
  | _, [] => []
  | m, (now, r) :: rest => ⟨r, (m.step now r).1⟩ :: transcript (m.step now r).2 rest

end Lasting

/-! ### What is past its time stays so -/

section Live

variable {s : Records} {m : Lasting} {t now : Moment} {key : String}

theorem StoredRecord.isExpired_mono (h : t ≤ now) {x : StoredRecord} (hx : x.isExpired t = true) :
    x.isExpired now = true := by
  simp only [isExpired, decide_eq_true_eq] at hx ⊢
  exact Span.le_trans hx (Moment.elapsed_le_elapsed (Moment.le_refl _) h)

/-- What is past its time may be left out before it is looked for what is alive. -/
theorem filter_filter_isExpired (h : t ≤ now) (o : Option StoredRecord) :
    (o.filter fun x => !x.isExpired t).filter (fun x => !x.isExpired now) =
      o.filter fun x => !x.isExpired now := by
  rw [Option.filter_filter]
  refine congrArg (fun p => o.filter p) (funext fun x => ?_)
  cases ht : x.isExpired t with
  | false => rfl
  | true =>
    rw [StoredRecord.isExpired_mono h ht]
    rfl

theorem Lasting.live?_later (m : Lasting) (h : t ≤ now) (key : String) :
    m.live? now key = (m.live? t key).filter fun x => !x.isExpired now :=
  (filter_filter_isExpired h (m key)).symm

theorem Lasting.live?_set (m : Lasting) (now : Moment) (key k : String) (x : Option StoredRecord) :
    (m.set key x).live? now k = if key = k
      then x.filter (fun x => !x.isExpired now) else m.live? now k := by
  unfold live? set
  split <;> rfl

namespace Records

theorem live?_later (s : Records) (h : t ≤ now) (key : String) :
    s.live? now key = (s.live? t key).filter fun x => !x.isExpired now :=
  (filter_filter_isExpired h (s.table.get? key)).symm

theorem live?_purge (s : Records) (now : Moment) (key : String) :
    (s.purge now).2.live? now key = s.live? now key := by
  show ((s.table.filter fun _ r => !r.isExpired now).get? key).filter _ = _
  rw [Table.get?_filter]
  exact filter_filter_isExpired (Moment.le_refl now) _

theorem live?_noteWrite (s : Records) (now : Moment) (key : String) :
    (s.noteWrite now).live? now key = s.live? now key := by
  unfold noteWrite
  dsimp only
  split
  · exact live?_purge _ now key
  · rfl

theorem live?_put (s : Records) (now : Moment) (record : IdempotencyRecord) (ttl : Span)
    (key : String) :
    (s.put now record ttl).live? now key =
      if record.key = key then (some ⟨record, ttl⟩ : Option StoredRecord).filter (fun x =>
        !x.isExpired now)
      else s.live? now key := by
  unfold put
  rw [live?_noteWrite]
  simp only [live?, Table.get?_insert]
  split <;> rfl

theorem live?_remove (s : Records) (now : Moment) (k key : String) :
    (s.remove k).live? now key = if k = key then none else s.live? now key := by
  simp only [live?, remove, Table.get?_erase]
  split <;> rfl

/-- A look-up may drop what is past its time, which shows nowhere. -/
theorem live?_get (s : Records) (now : Moment) (k key : String) :
    (s.get now k).2.live? now key = s.live? now key := by
  unfold get
  cases hk : s.table.get? k with
  | none => rfl
  | some x =>
    dsimp only
    split
    · rename_i hx
      simp only [live?, Table.get?_erase]
      split
      · rename_i h
        rw [← h, hk, Option.filter_some, hx]
        rfl
      · rfl
    · rfl

end Records

/-! ### The store beside the map -/

/-- A store and a map show the same records alive. -/
def Records.Alike (s : Records) (m : Lasting) (now : Moment) : Prop :=
  ∀ key, s.live? now key = m.live? now key

namespace Records.Alike

theorem empty (interval : Nat) (now : Moment) : Alike (.empty interval) .nothing now := fun _ => rfl

theorem mono (h : Alike s m t) (ht : t ≤ now) : Alike s m now := by
  intro key
  rw [s.live?_later ht, m.live?_later ht, h key]

theorem purge (h : Alike s m now) :
    Alike (s.purge now).2 m now := fun key => (s.live?_purge now key).trans (h key)

theorem put (h : Alike s m now) (record : IdempotencyRecord) (ttl : Span) :
    Alike (s.put now record ttl) (m.set record.key (some ⟨record, ttl⟩)) now := by
  intro key
  rw [s.live?_put, m.live?_set, h key]

/-- A request is answered alike, and leaves the same records alive. -/
theorem step (h : Alike s m now) (r : RecordStore.Request) :
    (s.step now r).1 = (m.step now r).1 ∧ Alike (s.step now r).2 (m.step now r).2 now := by
  cases r with
  | get key =>
    exact ⟨(s.step_get now key).trans (congrArg _ (h key)), fun k =>
      (s.live?_get now key k).trans (h k)⟩
  | put record ttl => exact ⟨rfl, h.put record ttl⟩
  | putIfAbsent record ttl =>
    have hkey := h record.key
    cases hl : s.live? now record.key with
    | some x =>
      have hm : (m.live? now record.key).isSome = true := by
        rw [← hkey, hl]
        rfl
      rw [Records.step_putIfAbsent_of_taken hl]
      simp only [Lasting.step, hm, if_true]
      exact ⟨trivial, h⟩
    | none =>
      have hm : (m.live? now record.key).isSome = false := by
        rw [← hkey, hl]
        rfl
      rw [Records.step_putIfAbsent_of_free hl]
      simp only [Lasting.step, hm, Bool.false_eq_true, if_false]
      exact ⟨trivial, h.put record ttl⟩
  | remove key =>
    refine ⟨rfl, fun k => ?_⟩
    show (s.remove key).live? now k = (m.set key none).live? now k
    rw [s.live?_remove, m.live?_set, h k]
    rfl

end Records.Alike

end Live

/-! ### Whole runs -/

section Runs

variable {s : Records} {m : Lasting} {t now : Moment} {turns : List (Moment × Turn)}

theorem RecordStore.asked_request (now : Moment) (r : RecordStore.Request)
    (turns : List (Moment × Turn)) :
    asked ((now, .request r) :: turns) = (now, r) :: asked turns := rfl

namespace Records.Alike

/-- From a store and a map that show the same, by induction on the turns. -/
theorem transcript (h : Alike s m t) (hclock : (t :: turns.map Prod.fst).Pairwise (· ≤ ·)) :
    s.transcript turns = m.transcript (asked turns) := by
  induction turns generalizing s m t with
  | nil => rfl
  | cons e turns ih =>
    obtain ⟨now, turn⟩ := e
    obtain ⟨hfirst, hclock⟩ := List.pairwise_cons.1 hclock
    have hnow : Alike s m now := h.mono (hfirst now (.head _))
    cases turn with
    | request r =>
      obtain ⟨hanswer, hafter⟩ := hnow.step r
      rw [Records.transcript, RecordStore.asked_request, Lasting.transcript, hanswer,
        ih hafter hclock]
    | sweep => exact ih hnow.purge hclock

/-- The same of the records that are alive afterwards. -/
theorem run (h : Alike s m t) (hclock : (t :: (turns.map Prod.fst ++ [now])).Pairwise (· ≤ ·)) :
    Alike (s.run turns) (m.run (asked turns)) now := by
  induction turns generalizing s m t with
  | nil => exact h.mono ((List.pairwise_cons.1 hclock).1 now (.head _))
  | cons e turns ih =>
    obtain ⟨t', turn⟩ := e
    obtain ⟨hfirst, hclock⟩ := List.pairwise_cons.1 hclock
    have hmoved : Alike s m t' := h.mono (hfirst t' (.head _))
    cases turn with
    | request r => exact ih (hmoved.step r).2 hclock
    | sweep => exact ih hmoved.purge hclock

end Records.Alike

namespace Records

/-- A record that is alive stays unless the turn replaces or removes it. -/
theorem turn_keeps {key : String} {x : StoredRecord} (h : s.live? now key = some x) {turn : Turn}
    (hturn : ¬ turn.Displaces key) : (s.turn now turn).table.get? key = some x := by
  obtain ⟨ht, hx⟩ := live?_eq_some.1 h
  cases turn with
  | request r => exact step_keeps ht hx hturn
  | sweep =>
    have hlive : (s.purge now).2.live? now key = some x := (s.live?_purge now key).trans h
    exact (live?_eq_some.1 hlive).1

/-- **Sweeps are unseen.** While the clock does not step back, every request is answered as by a map
that drops nothing by itself, so neither the interval between counted sweeps nor any sweep that is
asked for makes a difference. At every point of a run the store and the map show the same records
alive, and a record that is alive goes only if it is replaced or removed: no read, no sweep and no
refused claim takes it. -/
theorem sweeps_unseen (interval : Nat) (turns : List (Moment × Turn))
    (hclock : (turns.map Prod.fst).Pairwise (· ≤ ·)) :
    (empty interval).transcript turns = Lasting.nothing.transcript (asked turns) ∧
    (∀ interval' turns', asked turns' = asked turns → (turns'.map Prod.fst).Pairwise (· ≤ ·) →
      (empty interval').transcript turns' = (empty interval).transcript turns) ∧
    (∀ before now turn after, turns = before ++ (now, turn) :: after →
      let s := (empty interval).run before
      (∀ key, s.live? now key = (Lasting.nothing.run (asked before)).live? now key) ∧
        ∀ key x, s.live? now key = some x → ¬ turn.Displaces key →
          (s.turn now turn).table.get? key = some x) := by
  have hlasting : ∀ interval turns, (turns.map Prod.fst).Pairwise (· ≤ ·) →
      (empty interval).transcript turns = Lasting.nothing.transcript (asked turns) := by
    intro interval turns hclock
    obtain ⟨t, ht⟩ := Moment.exists_first hclock
    exact (Alike.empty interval t).transcript ht
  refine ⟨hlasting interval turns hclock, fun interval' turns' hasked hclock' => ?_, ?_⟩
  · rw [hlasting interval' turns' hclock', hlasting interval turns hclock, hasked]
  · intro before now turn after hturns s
    refine ⟨?_, fun key x hx hturn => turn_keeps hx hturn⟩
    rw [hturns, List.map_append, List.map_cons, List.append_cons] at hclock
    obtain ⟨t, ht⟩ := Moment.exists_first (List.pairwise_append.1 hclock).1
    exact (Alike.empty interval t).run ht

end Records

end Runs

namespace Records

/-- Results of `a` and `c` that live a minute, and a marker of `b` that lives half a minute. The
second claim of `b` is refused, then `b` is read too late; the third write is that of `c`, and by
then `a` is past its time. -/
def threeWrites : List (Moment × Turn) :=
  [(.ofMillis 0, .request (.put (.completed "a" [1] (.ofMillis 0)) (.ofSecs 60))),
    (.ofMillis 1000, .request (.putIfAbsent (.pending "b" (.ofMillis 1000)) (.ofSecs 30))),
    (.ofMillis 20000, .request (.putIfAbsent (.pending "b" (.ofMillis 20000)) (.ofSecs 30))),
    (.ofMillis 40000, .request (.get "b")),
    (.ofMillis 61000, .request (.put (.completed "c" [3] (.ofMillis 61000)) (.ofSecs 60))),
    (.ofMillis 62000, .request (.get "a"))]

/-- A store that is swept at every third write and one that is swept only when it is asked to, once
too often: at the end one record is left in each, but they have not always held the same ones. -/
theorem sweeps_unseen_threeWrites :
    let swept := threeWrites ++ [(.ofMillis 62000, .sweep)]
    (threeWrites.map Prod.fst).Pairwise (· ≤ ·) ∧ (swept.map Prod.fst).Pairwise (· ≤ ·) ∧
      (empty 3).transcript threeWrites = Lasting.nothing.transcript (asked threeWrites) ∧
      (empty 1000).transcript swept = (empty 3).transcript threeWrites ∧
      ((empty 3).run (threeWrites.take 5)).size = 1 ∧
      ((empty 1000).run (threeWrites.take 5)).size = 2 ∧
      ((empty 3).run threeWrites).size = 1 ∧ ((empty 1000).run swept).size = 1 ∧
      ((empty 3).run (threeWrites.take 2)).live? (.ofMillis 20000) "b" =
        (Lasting.nothing.run (asked (threeWrites.take 2))).live? (.ofMillis 20000) "b" := by
  intro swept
  have hclock : (threeWrites.map Prod.fst).Pairwise (· ≤ ·) := by decide
  have hswept : (swept.map Prod.fst).Pairwise (· ≤ ·) := by decide
  obtain ⟨hlasting, hsame, hpoint⟩ := sweeps_unseen 3 threeWrites hclock
  refine ⟨hclock, hswept, hlasting,
    hsame 1000 swept rfl hswept, by decide, by decide, by decide, by decide, ?_⟩
  exact (hpoint (threeWrites.take 2) (.ofMillis 20000) _ (threeWrites.drop 3) rfl).1 "b"

end Records

end GuardedWrites

import GuardedWrites.Proofs.Idempotency.SequentialCalls
import GuardedWrites.Proofs.Idempotency.Expiry

/-!
# The book of a guard

A guard whose calls do not overlap does what a book would do that has one line for each key: the
last success, and when it was stored. While an exclusive call runs, the record of its key is a
marker and not what the book says, but when the call is over the marker is gone.

* `Book.serve` — a call on the book;
* `Keeps` — the records that are alive are the lines in force, but perhaps for one key that a call
  holds;
* `Keeps.put`, `Keeps.store`, `Keeps.remove`, `Keeps.release` — what the requests of a call do to
  that;
* `Keeps.claimed` — an exclusive call holds its key while its operation runs;
* `Keeps.serve` — a call is answered as on the book, and leaves what the book says.
-/

namespace GuardedWrites

namespace OneByOne

variable {ω ρ : Type}

/-- For each key the last success, and when it was stored, and what is outside. -/
structure Book (ω ρ : Type) where
  lines : String → Option (Moment × ρ)
  outside : ω

namespace Book

/-- The book without lines. -/
def blank (w : ω) : Book ω ρ := ⟨fun _ => none, w⟩

/-- The line of a key, if it was written less than a time to live ago. -/
def inForce? (ttl : Span) (b : Book ω ρ) (now : Moment) (key : String) : Option (Moment × ρ) :=
  (b.lines key).filter fun x => x.1.elapsed now < ttl

/-- The book with another line, or none, for a key. -/
def set (b : Book ω ρ) (key : String) (x : Option (Moment × ρ)) : Book ω ρ :=
  { b with lines := fun k => if key = k then x else b.lines k }

/-- An operation runs, and its success is written down. -/
def perform (b : Book ω ρ) (key : String) (stamp : Moment) :
    Except Failure ρ × ω → Reply ω ρ × Book ω ρ
  | (.ok a, w) => (⟨.executed (.ok ⟨true, a⟩), [.ok a], w⟩,
      { b.set key (some (stamp, a)) with outside := w })
  | (.error e, w) => (⟨.executed (.error e), [.error e], w⟩, { b with outside := w })

/-- A call that looks at a time, and stores its result at another one. -/
def serve (ttl : Span) (b : Book ω ρ) (look stamp : Moment) : Call ω ρ → Reply ω ρ × Book ω ρ
  | .execute _ key operation =>
    match b.inForce? ttl look key with
    | some x => (⟨.executed (.ok ⟨false, x.2⟩), [], b.outside⟩, b)
    | none => b.perform key stamp (operation b.outside)
  | .wasCompleted key => (⟨.completed (.ok (b.inForce? ttl look key).isSome), [], b.outside⟩, b)
  | .getResult key => (⟨.result (.ok ((b.inForce? ttl look key).map (·.2))), [], b.outside⟩, b)
  | .clear key => (⟨.cleared (.ok ()), [], b.outside⟩, b.set key none)

/-- Calls one after the other. -/
def transcript (ttl : Span) : Book ω ρ → List (Call ω ρ × Readings) → List (Entry ω ρ)
  | _, [] => []
  | b, (c, t) :: rest =>
    ⟨c, t, (b.serve ttl t.look t.stamp c).1⟩ :: transcript ttl (b.serve ttl t.look t.stamp c).2 rest

end Book

/-! ### The records beside the book -/

/-- The record of a key and its line agree. -/
inductive Shows (codec : ResultCodec ρ) (ttl : Span) (rk : String) : Option StoredRecord →
    Option (Moment × ρ) → Prop
  | nothing : Shows codec ttl rk none none
  | result {bytes : List UInt8} {t : Moment} {a : ρ} (decodes : codec.decode bytes = some a) :
    Shows codec ttl rk (some ⟨.completed rk bytes t, ttl⟩) (some (t, a))

/-- The records that are alive are the lines in force, but perhaps for one key that a call holds. -/
def Keeps (config : IdempotencyConfig) (codec : String → ResultCodec ρ) (held : Option String)
    (s : Records) (b : Book ω ρ) (now : Moment) : Prop :=
  ∀ key, held ≠ some key → Shows (codec key) config.recordTtl (config.keyPrefix ++ key)
    (s.live? now (config.keyPrefix ++ key)) (b.inForce? config.recordTtl now key)

section Book

variable {config : IdempotencyConfig} {codec : String → ResultCodec ρ} {held : Option String}
variable {s : Records}
variable {b : Book ω ρ} {t now : Moment} {key rk : String} {ttl : Span}

open IdempotencyGuard (found)

namespace Shows

variable {codec : ResultCodec ρ} {o : Option StoredRecord} {x : Option (Moment × ρ)} {a : ρ}

theorem eq_none (h : Shows codec ttl rk o none) : o = none := by
  cases h
  rfl

theorem found_eq (h : Shows codec ttl rk o x) :
    found codec (.ok (o.map (·.record))) = .ok (x.map (·.2)) := by
  cases h with
  | nothing => rfl
  | result decodes =>
    simp [found, IdempotencyRecord.completed, IdempotencyRecord.isCompleted, decodes]

theorem isCompleted_eq (h : Shows codec ttl rk o x) :
    (o.any fun y => y.record.isCompleted) = x.isSome := by
  cases h <;> rfl

/-- A record and its line are past their time together. -/
theorem filter (h : Shows codec ttl rk o x) (now : Moment) :
    Shows codec ttl rk (o.filter fun y => !y.isExpired now)
      (x.filter fun y => y.1.elapsed now < ttl) := by
  cases h with
  | nothing => exact .nothing
  | @result bytes t a decodes =>
    by_cases ht : t.elapsed now < ttl
    · have hx : (⟨.completed rk bytes t, ttl⟩ : StoredRecord).isExpired now = false :=
        StoredRecord.isExpired_eq_false.2 ht
      rw [Option.filter_some, hx, Option.filter_some, decide_eq_true ht]
      exact .result decodes
    · have hx : (⟨.completed rk bytes t, ttl⟩ : StoredRecord).isExpired now = true :=
        decide_eq_true (Span.not_lt.1 ht)
      rw [Option.filter_some, hx, Option.filter_some, decide_eq_false ht]
      exact .nothing

end Shows

namespace Book

theorem inForce?_congr {b' : Book ω ρ} (h : b'.lines = b.lines) (now : Moment) (key : String) :
    b'.inForce? ttl now key = b.inForce? ttl now key := by
  rw [inForce?, inForce?, h]

theorem inForce?_later (b : Book ω ρ) (h : t ≤ now) (key : String) :
    b.inForce? ttl now key = (b.inForce? ttl t key).filter fun x => x.1.elapsed now < ttl := by
  unfold inForce?
  rw [Option.filter_filter]
  refine congrArg (fun p => (b.lines key).filter p) (funext fun x => ?_)
  by_cases hx : x.1.elapsed now < ttl
  · have hx' : x.1.elapsed t < ttl :=
        Span.lt_of_le_of_lt (Moment.elapsed_le_elapsed (Moment.le_refl _) h) hx
    simp [hx, hx']
  · simp [hx]

theorem inForce?_set (b : Book ω ρ) (now : Moment) (key k : String) (x : Option (Moment × ρ)) :
    (b.set key x).inForce? ttl now k =
      if key = k then x.filter (fun x => x.1.elapsed now < ttl) else b.inForce? ttl now k := by
  unfold inForce? set
  dsimp only
  split <;> rfl

end Book

namespace Keeps

theorem mono (h : Keeps config codec held s b t) (ht : t ≤ now) :
    Keeps config codec held s b now := by
  intro key hk
  rw [s.live?_later ht, b.inForce?_later ht]
  exact (h key hk).filter now

theorem hold (h : Keeps config codec none s b now) (key : String) :
    Keeps config codec (some key) s b now :=
  fun k _ => h k (Option.some_ne_none k).symm

/-- A request that shows at no key but the one that is held. -/
theorem of_live?_eq {s' : Records} (h : Keeps config codec held s b now)
    (hs : ∀ k, held ≠ some k → s'.live? now (config.keyPrefix ++ k) =
      s.live? now (config.keyPrefix ++ k)) :
    Keeps config codec held s' b now := by
  intro k hk
  rw [hs k hk]
  exact h k hk

theorem get (h : Keeps config codec held s b now) (rk : String) :
    Keeps config codec held (s.get now rk).2 b now :=
  h.of_live?_eq fun k _ => s.live?_get now rk (config.keyPrefix ++ k)

/-- Whatever is stored under the key that is held, the others do not see it. -/
theorem put (h : Keeps config codec (some key) s b now) {record : IdempotencyRecord}
    (hr : record.key = config.keyPrefix ++ key) (ttl : Span) :
    Keeps config codec (some key) (s.put now record ttl) b now := by
  refine h.of_live?_eq fun k hk => ?_
  have hne : record.key ≠ config.keyPrefix ++ k := by
    rw [hr]
    exact fun e => hk (congrArg some (String.append_right_inj _ |>.1 e))
  rw [s.live?_put, if_neg hne]

/-- The key that is held gets a line with its record. -/
theorem store (h : Keeps config codec (some key) s b now) {bytes : List UInt8} {a : ρ}
    (ha : (codec key).decode bytes = some a) :
    Keeps config codec none
      (s.put now (.completed (config.keyPrefix ++ key) bytes t) config.recordTtl)
      (b.set key (some (t, a))) now := by
  intro k _
  have hkey : (IdempotencyRecord.completed (config.keyPrefix ++ key) bytes t).key =
      config.keyPrefix ++ key := rfl
  rw [s.live?_put, hkey, b.inForce?_set]
  simp only [String.append_right_inj]
  split
  · rename_i hk
    subst hk
    exact Shows.filter (.result ha) now
  · rename_i hk
    exact h k fun e => hk (Option.some.inj e)

/-- The key that is held has no line any more, nor a record. -/
theorem remove (h : Keeps config codec (some key) s b now) :
    Keeps config codec none (s.remove (config.keyPrefix ++ key)) (b.set key none) now := by
  intro k _
  rw [s.live?_remove, b.inForce?_set]
  simp only [String.append_right_inj]
  split
  · exact .nothing
  · rename_i hk
    exact h k fun e => hk (Option.some.inj e)

/-- The key that is held has no line in force, and no record any more. -/
theorem release (h : Keeps config codec (some key) s b now)
    (hb : b.inForce? config.recordTtl now key = none) :
    Keeps config codec none (s.remove (config.keyPrefix ++ key)) b now := by
  intro k hk
  have hset := h.remove k hk
  rw [b.inForce?_set] at hset
  split at hset
  · rename_i hkey
    subst hkey
    rwa [hb]
  · exact hset

end Keeps

end Book

/-! ### One call -/

section Serve

variable {config : IdempotencyConfig} {codec : String → ResultCodec ρ} {t : Readings} {s : Site ω}
variable {b : Book ω ρ}
variable {d : Desk ω ρ} {key : String} {operation : ω → Except Failure ρ × ω} {ttl : Span}
variable {look stamp : Moment}

theorem Site.serve_eq {c : Call ω ρ} {answer : Answer ρ}
    (h : c.perform config codec t ⟨s, t.before, []⟩ = (answer, d)) :
    s.serve config codec c t = (d.reply answer, d.toSite) :=
  congrArg (fun x : Answer ρ × Desk ω ρ => (x.2.reply x.1, x.2.toSite)) h

theorem Book.serve_of_inForce {x : Moment × ρ} (exclusive : Bool)
    (h : b.inForce? ttl look key = some x) :
    b.serve ttl look stamp (.execute exclusive key operation) =
      (⟨.executed (.ok ⟨false, x.2⟩), [], b.outside⟩, b) := by
  simp only [serve, h]

theorem Book.serve_of_not_inForce (exclusive : Bool) (h : b.inForce? ttl look key = none) :
    b.serve ttl look stamp (.execute exclusive key operation) =
      b.perform key stamp (operation b.outside) := by
  simp only [serve, h]

theorem Book.outside_serve (b : Book ω ρ) (ttl : Span) (look stamp : Moment) (c : Call ω ρ) :
    (b.serve ttl look stamp c).1.outside = (b.serve ttl look stamp c).2.outside := by
  cases c with
  | execute exclusive key operation =>
    cases hx : b.inForce? ttl look key with
    | some x => rw [serve_of_inForce exclusive hx]
    | none =>
      rw [serve_of_not_inForce exclusive hx]
      cases operation b.outside with
      | mk x w => cases x <;> rfl
  | wasCompleted key => rfl
  | getResult key => rfl
  | clear key => rfl

theorem Call.perform_plain {x : Except Failure (Execution ρ)} {d' : Desk ω ρ}
    (h : (Desk.guard config).execute (codec key) key (Desk.invoke t operation) d = (x, d')) :
    (Call.execute false key operation).perform config codec t d = (.executed x, d') :=
  congrArg (fun x : Except Failure (Execution ρ) × Desk ω ρ => (Answer.executed x.1, x.2)) h

theorem Call.perform_exclusive {x : Except Failure (Execution ρ)} {d' : Desk ω ρ}
    (h : (Desk.guard config).executeExclusive (codec key) key (Desk.invoke t operation)
      d = (x, d')) :
    (Call.execute true key operation).perform config codec t d = (.executed x, d') :=
  congrArg (fun x : Except Failure (Execution ρ) × Desk ω ρ => (Answer.executed x.1, x.2)) h

theorem Call.perform_of_found {a : ρ} (exclusive : Bool)
    (h : IdempotencyGuard.found (codec key)
      (.ok ((d.records.live? (d.clock 0) (config.keyPrefix ++ key)).map (·.record))) =
        .ok (some a)) :
    (Call.execute exclusive key operation).perform config codec t d =
      (.executed (.ok ⟨false, a⟩), d.asked (.get (config.keyPrefix ++ key))) := by
  cases exclusive with
  | false => exact perform_plain (Desk.execute_of_found h)
  | true => exact perform_exclusive (Desk.executeExclusive_of_found h)

end Serve

/-- The key that a call is about. -/
def Call.key : Call ω ρ → String
  | .execute _ key _ | .wasCompleted key | .getResult key | .clear key => key

/-- A call on a site is answered as on a book, and what it leaves at any later reading is again kept
in the book. -/
structure Agrees (config : IdempotencyConfig) (codec : String → ResultCodec ρ) (c : Call ω ρ)
    (t : Readings) (x : Reply ω ρ × Site ω) (y : Reply ω ρ × Book ω ρ) : Prop where
  reply : x.1 = y.1
  outside : x.2.outside = y.2.outside
  keeps : (∀ a, .ok a ∈ y.1.outcomes → (codec c.key).RoundTrips a) →
    ∀ now, (∀ i, t.after i ≤ now) → Keeps config codec none x.2.records y.2 now

namespace Keeps

variable {config : IdempotencyConfig} {codec : String → ResultCodec ρ} {s : Site ω} {b : Book ω ρ}
variable {t : Readings}
variable {key : String} {operation : ω → Except Failure ρ × ω}

theorem le_later {now : Moment} (hnow : ∀ i, t.after i ≤ now) (i : Nat) : t.before i ≤ now :=
  Moment.le_trans (t.before_le_after i 0) (hnow 0)

/-- The end of a call whose operation succeeds, from a desk at which nothing is known but of other
keys. -/
theorem ends_ok {d : Desk ω ρ} {c : Call ω ρ} {a : ρ} {w : ω} {i : Nat} (hc : c.key = key)
    (h : Keeps config codec (some key) d.records b (t.before i)) (hd : d.outside = b.outside)
    (hn : d.outcomes = []) (hop : operation b.outside = (.ok a, w)) :
    let d' := (Desk.invoke t operation d).2.stored config (codec key) (config.keyPrefix ++ key) a
    Agrees config codec c t (d'.reply (.executed (.ok ⟨true, a⟩)), d'.toSite)
      (b.perform key t.stamp (.ok a, w)) := by
  intro d'
  have hout : d'.outside = w := by
    show Site.outside (Desk.stored config (codec key) (Desk.invoke t operation d).2 _ a).toSite = w
    rw [Desk.outside_stored]
    show (operation d.outside).2 = w
    rw [hd, hop]
  have houtcomes : d'.outcomes = [.ok a] := by
    show (Desk.stored config (codec key) (Desk.invoke t operation d).2 _ a).outcomes = _
    rw [Desk.outcomes_stored]
    show d.outcomes ++ [(operation d.outside).1] = [.ok a]
    rw [hn, hd, hop]
    rfl
  refine ⟨?_, hout, fun hcodec now hnow => ?_⟩
  · show Reply.mk _ d'.outcomes d'.outside = _
    rw [hout, houtcomes]
    rfl
  · obtain ⟨bytes, hencode, hdecode⟩ := hcodec a (.head _)
    rw [hc] at hencode hdecode
    have hrecords : d'.records =
        d.records.put (t.after 1) (.completed (config.keyPrefix ++ key) bytes (t.after 0))
          config.recordTtl :=
      Desk.records_stored hencode
    show Keeps config codec none d'.records _ now
    rw [hrecords]
    have hstored := (h.mono (t.before_le_after i 1)).store (t := t.after 0) hdecode
    exact hstored.mono (hnow 1)

/-- The end of a call whose operation fails. -/
theorem ends_error {d d' : Desk ω ρ} {c : Call ω ρ} {e : Failure} {w : ω}
    (hd : d.outside = b.outside) (hn : d.outcomes = []) (hop : operation b.outside = (.error e, w))
    (hout : d'.outside = (Desk.invoke t operation d).2.outside)
    (houtcomes : d'.outcomes = (Desk.invoke t operation d).2.outcomes)
    (hkeeps : ∀ now, (∀ i, t.after i ≤ now) → Keeps config codec none d'.records b now) :
    Agrees config codec c t (d'.reply (.executed (.error e)), d'.toSite)
      (b.perform key t.stamp (.error e, w)) := by
  have hw : d'.outside = w := by
    rw [hout]
    show (operation d.outside).2 = w
    rw [hd, hop]
  have hone : d'.outcomes = [.error e] := by
    rw [houtcomes]
    show d.outcomes ++ [(operation d.outside).1] = [.error e]
    rw [hn, hd, hop]
    rfl
  refine ⟨?_, hw, fun _ now hnow => hkeeps now hnow⟩
  show Reply.mk _ d'.outcomes d'.outside = _
  rw [hw, hone]
  rfl

/-- A call whose key has a line in force. -/
theorem serve_of_inForce {x : Moment × ρ} (h : Keeps config codec none s.records b t.look)
    (hs : s.outside = b.outside) (exclusive : Bool)
    (hx : b.inForce? config.recordTtl t.look key = some x) :
    Agrees config codec (.execute exclusive key operation) t
      (s.serve config codec (.execute exclusive key operation) t)
      (b.serve config.recordTtl t.look t.stamp (.execute exclusive key operation)) := by
  have hkey := h key (Option.some_ne_none key).symm
  rw [hx] at hkey
  have hperform :
      (Call.execute exclusive key operation).perform config codec t ⟨s, t.before, []⟩ = _ :=
    Call.perform_of_found exclusive hkey.found_eq
  rw [Site.serve_eq hperform, Book.serve_of_inForce exclusive hx]
  refine ⟨?_, hs, fun _ now hnow => (h.get _).mono (le_later hnow 0)⟩
  show Reply.mk _ [] s.outside = Reply.mk _ [] b.outside
  rw [hs]

/-- A plain call whose key has no line in force. -/
theorem serve_plain (h : Keeps config codec none s.records b t.look) (hs : s.outside = b.outside)
    (hx : b.inForce? config.recordTtl t.look key = none) :
    Agrees config codec (.execute false key operation) t
      (s.serve config codec (.execute false key operation) t)
      (b.serve config.recordTtl t.look t.stamp (.execute false key operation)) := by
  have hkey := h key (Option.some_ne_none key).symm
  rw [hx] at hkey
  let d : Desk ω ρ := Desk.asked ⟨s, t.before, []⟩ (.get (config.keyPrefix ++ key))
  have hget : Keeps config codec none d.records b t.look := h.get _
  have hop : (Desk.invoke t operation d).1 = (operation b.outside).1 :=
      congrArg (fun w => (operation w).1) hs
  rw [Book.serve_of_not_inForce false hx]
  cases hrun : operation b.outside with
  | mk x w =>
    rw [hrun] at hop
    cases x with
    | ok a =>
      rw [Site.serve_eq (Call.perform_plain (Desk.execute_of_ok hkey.eq_none hop))]
      exact ends_ok (i := 0) rfl (hget.hold key) hs rfl hrun
    | error e =>
      rw [Site.serve_eq (Call.perform_plain (Desk.execute_of_error hkey.eq_none hop))]
      exact ends_error hs rfl hrun rfl rfl fun now hnow => hget.mono (le_later hnow 0)

theorem not_inForce_later (hx : b.inForce? config.recordTtl t.look key = none) {now : Moment}
    (hnow : t.look ≤ now) :
    b.inForce? config.recordTtl now key = none := by
  rw [b.inForce?_later hnow, hx]
  rfl

/-- An exclusive call whose key has no line in force leaves a marker, and holds its key. -/
theorem claimed (h : Keeps config codec none s.records b t.look)
    (hx : b.inForce? config.recordTtl t.look key = none) :
    let d : Desk ω ρ := Desk.claimed ⟨s, t.before, []⟩ (config.keyPrefix ++ key) config.lockTtl
    Keeps config codec (some key) d.records b (t.before 2) ∧
      ∀ op, (Desk.guard config).executeExclusive (codec key) key op ⟨s, t.before, []⟩ =
        (Desk.guard config).runClaimed (codec key) (config.keyPrefix ++ key) op d := by
  intro d
  have hkey := h key (Option.some_ne_none key).symm
  rw [hx] at hkey
  let looked : Desk ω ρ := Desk.asked ⟨s, t.before, []⟩ (.get (config.keyPrefix ++ key))
  have hlook : t.look ≤ t.before 2 := t.before_mono 0 2 (Nat.zero_le 2)
  have hget : Keeps config codec none looked.records b (t.before 2) := (h.get _).mono hlook
  have hagain : looked.records.live? (t.before 2) (config.keyPrefix ++ key) = none := by
    have hkey' := hget key (Option.some_ne_none key).symm
    rw [not_inForce_later hx hlook] at hkey'
    exact hkey'.eq_none
  have hrecords : d.records =
      looked.records.put (t.before 2)
        (.pending (config.keyPrefix ++ key) (t.before 1)) config.lockTtl :=
    Desk.records_claimed hagain config.lockTtl
  refine ⟨?_, fun op => Desk.executeExclusive_of_free hkey.eq_none hagain⟩
  rw [hrecords]
  exact (hget.hold key).put rfl config.lockTtl

/-- An exclusive call whose key has no line in force. -/
theorem serve_exclusive (h : Keeps config codec none s.records b t.look)
    (hs : s.outside = b.outside) (hx : b.inForce? config.recordTtl t.look key = none) :
    Agrees config codec (.execute true key operation) t
      (s.serve config codec (.execute true key operation) t)
      (b.serve config.recordTtl t.look t.stamp (.execute true key operation)) := by
  obtain ⟨hclaimed, hclaim⟩ := h.claimed (ρ := ρ) hx
  let d : Desk ω ρ := Desk.claimed ⟨s, t.before, []⟩ (config.keyPrefix ++ key) config.lockTtl
  have hop : (Desk.invoke t operation d).1 = (operation b.outside).1 :=
      congrArg (fun w => (operation w).1) hs
  rw [Book.serve_of_not_inForce true hx]
  cases hrun : operation b.outside with
  | mk x w =>
    rw [hrun] at hop
    cases x with
    | ok a =>
      rw [Site.serve_eq (Call.perform_exclusive ((hclaim _).trans (Desk.runClaimed_of_ok hop)))]
      exact ends_ok (i := 2) rfl hclaimed hs rfl hrun
    | error e =>
      rw [Site.serve_eq (Call.perform_exclusive ((hclaim _).trans (Desk.runClaimed_of_error hop)))]
      refine ends_error (d := d) hs rfl hrun rfl rfl fun now hnow => ?_
      exact (hclaimed.mono (le_later hnow 2)).release (not_inForce_later hx (le_later hnow 0))

/-- **One call.** It is answered as on the book, does the same outside, and leaves what the book
says. -/
theorem serve (h : Keeps config codec none s.records b t.look) (hs : s.outside = b.outside)
    (c : Call ω ρ) :
    Agrees config codec c t (s.serve config codec c t)
      (b.serve config.recordTtl t.look t.stamp c) := by
  cases c with
  | execute exclusive key operation =>
    cases hx : b.inForce? config.recordTtl t.look key with
    | some x => exact h.serve_of_inForce hs exclusive hx
    | none =>
      cases exclusive with
      | false => exact h.serve_plain hs hx
      | true => exact h.serve_exclusive hs hx
  | wasCompleted key =>
    have hkey := h key (Option.some_ne_none key).symm
    have hperform :
        (Call.wasCompleted key : Call ω ρ).perform config codec t ⟨s, t.before, []⟩ = _ :=
      congrArg (fun x : Except Failure Bool × Desk ω ρ => (Answer.completed x.1, x.2))
        (Desk.wasCompleted_apply config key _)
    rw [Site.serve_eq hperform]
    refine ⟨?_, hs, fun _ now hnow => (h.get _).mono (le_later hnow 0)⟩
    show Reply.mk (.completed (.ok ((s.records.live? t.look (config.keyPrefix ++ key)).any _)))
      [] s.outside = _
    rw [hkey.isCompleted_eq, hs]
    rfl
  | getResult key =>
    have hkey := h key (Option.some_ne_none key).symm
    have hperform : (Call.getResult key : Call ω ρ).perform config codec t ⟨s, t.before, []⟩ = _ :=
      congrArg (fun x : Except Failure (Option ρ) × Desk ω ρ => (Answer.result x.1, x.2))
        (Desk.replay_apply config (codec key) (config.keyPrefix ++ key) _)
    rw [Site.serve_eq hperform]
    refine ⟨?_, hs, fun _ now hnow => (h.get _).mono (le_later hnow 0)⟩
    show Reply.mk (.result (IdempotencyGuard.found (codec key)
      (.ok ((s.records.live? t.look (config.keyPrefix ++ key)).map (·.record))))) [] s.outside = _
    rw [hkey.found_eq, hs]
    rfl
  | clear key =>
    refine ⟨?_, hs, fun _ now hnow => ((h.hold key).remove).mono (le_later hnow 0)⟩
    show Reply.mk _ [] s.outside = Reply.mk _ [] b.outside
    rw [hs]
    rfl

end Keeps

end OneByOne

end GuardedWrites

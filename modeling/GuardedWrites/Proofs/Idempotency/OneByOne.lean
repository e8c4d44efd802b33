import GuardedWrites.Proofs.Idempotency.LastSuccess

/-!
# Calls one after the other

While calls do not overlap, an operation is invoked unless an earlier success of its key is in
force, whichever variant the calls are made in.

* `InForce` — an earlier call succeeded not too long ago, and its key was not cleared since;
* `Entry.Right` — what a call has to be answered after earlier ones;
* `Tells.serve` — the lines of the book in force are the successes in force;
* `transcript_eq` — a run of the guard is a run on the book;
* `runs_iff_not_in_force` — every run of the guard.
-/

namespace GuardedWrites

namespace OneByOne

variable {ω ρ : Type}

/-- The clock does not step back from one call to the next. -/
def InOrder (calls : List (Call ω ρ × Readings)) : Prop :=
  calls.Pairwise fun x y => ∀ i, x.2.after i ≤ y.2.look

/-- Every result that an operation returned in a call can be read back. -/
def Entry.Faithful (codec : String → ResultCodec ρ) (e : Entry ω ρ) : Prop :=
  ∀ a, .ok a ∈ e.reply.outcomes → (codec e.call.key).RoundTrips a

/-- A call that asks to forget its key. -/
def Call.Clears (key : String) : Call ω ρ → Prop
  | .clear k => k = key
  | .execute _ _ _ | .wasCompleted _ | .getResult _ => False

/-- An earlier call ran an operation of the key that succeeded with a result. This was stored less
than a time to live ago, and the key was not cleared since. -/
def InForce (ttl : Span) (key : String) (now : Moment) (earlier : List (Entry ω ρ))
    (a : ρ) : Prop :=
  ∃ l e r, earlier = l ++ e :: r ∧ e.call.key = key ∧ .ok a ∈ e.reply.outcomes ∧
    e.readings.stamp.elapsed now < ttl ∧ ∀ e' ∈ r, ¬ e'.call.Clears key

/-- A call without its variant. -/
def Call.plain : Call ω ρ → Call ω ρ
  | .execute _ key operation => .execute false key operation
  | c => c

/-- What of a call and its readings its answer depends on. -/
def essence (x : Call ω ρ × Readings) : Call ω ρ × Moment × Moment :=
  (x.1.plain, x.2.look, x.2.stamp)

/-- An entry without the variant of its call. -/
def Entry.view (e : Entry ω ρ) : Call ω ρ × Reply ω ρ := (e.call.plain, e.reply)

/-- What a call has to be answered after earlier calls, if `w` is what they have left outside. -/
def Entry.Right (ttl : Span) (earlier : List (Entry ω ρ)) (w : ω) (e : Entry ω ρ) : Prop :=
  match e.call with
  | .execute _ key operation =>
    (∀ a, InForce ttl key e.readings.look earlier a →
      e.reply = ⟨.executed (.ok ⟨false, a⟩), [], w⟩) ∧
    ((∀ a, ¬ InForce ttl key e.readings.look earlier a) →
      e.reply = ⟨.executed ((operation w).1.map (⟨true, ·⟩)), [(operation w).1], (operation w).2⟩)
  | .wasCompleted key =>
    ∃ b, e.reply = ⟨.completed (.ok b), [], w⟩ ∧
      (b = true ↔ ∃ a, InForce ttl key e.readings.look earlier a)
  | .getResult key =>
    (∀ a, InForce ttl key e.readings.look earlier a → e.reply = ⟨.result (.ok (some a)), [], w⟩) ∧
    ((∀ a, ¬ InForce ttl key e.readings.look earlier a) → e.reply = ⟨.result (.ok none), [], w⟩)
  | .clear _ => e.reply = ⟨.cleared (.ok ()), [], w⟩

/-- What earlier calls have left outside. -/
def left (w : ω) (earlier : List (Entry ω ρ)) : ω := (earlier.getLast?.map (·.reply.outside)).getD w

section History

variable {ttl : Span} {key : String} {now : Moment} {l : List (Entry ω ρ)} {e : Entry ω ρ} {a : ρ}

/-- Seen from one call later. -/
theorem inForce_append_singleton : InForce ttl key now (l ++ [e]) a ↔
    (e.call.key = key ∧ .ok a ∈ e.reply.outcomes ∧ e.readings.stamp.elapsed now < ttl) ∨
      (¬ e.call.Clears key ∧ InForce ttl key now l a) := by
  constructor
  · rintro ⟨l', e', r, heq, hkey, hok, hage, hclear⟩
    rcases List.eq_nil_or_concat r with rfl | ⟨r', e'', rfl⟩
    · obtain ⟨rfl, he⟩ := List.append_inj' heq rfl
      obtain rfl : e = e' := by simpa using he
      exact .inl ⟨hkey, hok, hage⟩
    · rw [List.concat_eq_append, ← List.cons_append, ← List.append_assoc] at heq
      obtain ⟨rfl, he⟩ := List.append_inj' heq rfl
      obtain rfl : e = e'' := by simpa using he
      refine .inr ⟨hclear e (by simp), l', e', r', rfl, hkey, hok, hage,
        fun x hx => hclear x (by simp [hx])⟩
  · rintro (⟨hkey, hok, hage⟩ | ⟨hclear, l', e', r, rfl, hkey, hok, hage, hr⟩)
    · exact ⟨l, e, [], rfl, hkey, hok, hage, by simp⟩
    · refine ⟨l', e', r ++ [e], by simp, hkey, hok, hage, fun x hx => ?_⟩
      rcases List.mem_append.1 hx with hx | hx
      · exact hr x hx
      · rw [List.mem_singleton.1 hx]
        exact hclear

theorem left_append_singleton (w : ω) : left w (l ++ [e]) = e.reply.outside := by
  simp [left]

end History

/-- From a time on, the book has a line in force for a key where the history says so. -/
def Tells (ttl : Span) (b : Book ω ρ) (past : List (Entry ω ρ)) (t : Moment) : Prop :=
  ∀ key now a, t ≤ now → (InForce ttl key now past a ↔
    ∃ stamp, b.inForce? ttl now key = some (stamp, a))

namespace Tells

variable {ttl : Span} {b b' : Book ω ρ} {past : List (Entry ω ρ)} {t t' : Moment} {e : Entry ω ρ}
variable {key : String}

theorem mono (h : Tells ttl b past t) (ht : t ≤ t') : Tells ttl b past t' :=
  fun key now a hnow => h key now a (Moment.le_trans ht hnow)

theorem not_inForce (h : Tells ttl b past t) (hb : b.inForce? ttl t key = none) {now : Moment}
    (hnow : t ≤ now) (a : ρ) :
    ¬ InForce ttl key now past a := by
  rw [h key now a hnow, b.inForce?_later hnow, hb]
  simp

/-- A call without a success that clears nothing changes no line. -/
theorem unchanged (h : Tells ttl b past t) (hok : ∀ a, .ok a ∉ e.reply.outcomes)
    (hclear : ∀ key, ¬ e.call.Clears key) (hb : b'.lines = b.lines) :
    Tells ttl b' (past ++ [e]) t := by
  intro key now a hnow
  rw [inForce_append_singleton, Book.inForce?_congr hb, ← h key now a hnow]
  simp [hok, hclear]

/-- A success is a line of its key. -/
theorem succeeded (h : Tells ttl b past t) (hnone : b.inForce? ttl t e.call.key = none) {a : ρ}
    (hok : e.reply.outcomes = [.ok a]) (hclear : ∀ key, ¬ e.call.Clears key)
    (hb : b'.lines = (b.set e.call.key (some (e.readings.stamp, a))).lines) :
    Tells ttl b' (past ++ [e]) t := by
  intro key now a' hnow
  rw [inForce_append_singleton, Book.inForce?_congr hb, b.inForce?_set]
  by_cases hkey : e.call.key = key
  · subst hkey
    have hpast := h.not_inForce hnone hnow a'
    by_cases hage : e.readings.stamp.elapsed now < ttl
    · rw [Option.filter_some, decide_eq_true hage, if_pos rfl]
      simpa [hok, hpast, hage] using eq_comm
    · simp [hpast, hage]
  · rw [if_neg hkey, ← h key now a' hnow]
    simp [hkey, hclear]

/-- A key that is cleared has no line. -/
theorem cleared (h : Tells ttl b past t) (hok : ∀ a, .ok a ∉ e.reply.outcomes)
    (hcall : e.call = .clear key) (hb : b'.lines = (b.set key none).lines) :
    Tells ttl b' (past ++ [e]) t := by
  intro k now a hnow
  rw [inForce_append_singleton, Book.inForce?_congr hb, b.inForce?_set, hcall]
  by_cases hkey : key = k
  · simp [hok, hkey, Call.Clears]
  · rw [if_neg hkey, ← h k now a hnow]
    simp [hok, hkey, Call.Clears]

/-- **One call on the book**, beside what the history says. -/
theorem serve {t : Readings} (h : Tells ttl b past t.look) (c : Call ω ρ) :
    Tells ttl (b.serve ttl t.look t.stamp c).2
      (past ++ [⟨c, t, (b.serve ttl t.look t.stamp c).1⟩]) t.look := by
  cases c with
  | execute exclusive key operation =>
    cases hx : b.inForce? ttl t.look key with
    | some x =>
      rw [Book.serve_of_inForce exclusive hx]
      exact h.unchanged (by simp) (fun _ hclear => hclear) rfl
    | none =>
      rw [Book.serve_of_not_inForce exclusive hx]
      cases operation b.outside with
      | mk x w =>
        cases x with
        | ok a => exact h.succeeded hx rfl (fun _ hclear => hclear) rfl
        | error e => exact h.unchanged (by simp [Book.perform]) (fun _ hclear => hclear) rfl
  | wasCompleted key => exact h.unchanged (by simp [Book.serve]) (fun _ hclear => hclear) rfl
  | getResult key => exact h.unchanged (by simp [Book.serve]) (fun _ hclear => hclear) rfl
  | clear key => exact h.cleared (by simp [Book.serve]) rfl rfl

/-- What is answered on the book is right. -/
theorem right {t : Readings} (h : Tells ttl b past t.look) (c : Call ω ρ) :
    (⟨c, t, (b.serve ttl t.look t.stamp c).1⟩ : Entry ω ρ).Right ttl past b.outside := by
  have hnow : t.look ≤ t.look := Moment.le_refl _
  cases c with
  | execute exclusive key operation =>
    cases hx : b.inForce? ttl t.look key with
    | some x =>
      obtain ⟨stamp, a⟩ := x
      rw [Book.serve_of_inForce exclusive hx]
      refine ⟨fun a' ha' => ?_, fun hnone => absurd ((h key t.look a hnow).2 ⟨stamp, hx⟩) (hnone a)⟩
      obtain ⟨stamp', hx'⟩ := (h key t.look a' hnow).1 ha'
      cases hx.symm.trans hx'
      rfl
    | none =>
      rw [Book.serve_of_not_inForce exclusive hx]
      refine ⟨fun a ha => absurd ha (h.not_inForce hx hnow a), fun _ => ?_⟩
      show (b.perform key t.stamp (operation b.outside)).1 = _
      cases operation b.outside with
      | mk x w => cases x <;> rfl
  | wasCompleted key =>
    refine ⟨_, rfl, ?_⟩
    show (b.inForce? ttl t.look key).isSome = true ↔ ∃ a, InForce ttl key t.look past a
    simp only [h key t.look _ hnow]
    cases b.inForce? ttl t.look key with
    | none => simp
    | some x => exact ⟨fun _ => ⟨x.2, x.1, rfl⟩, fun _ => rfl⟩
  | getResult key =>
    refine ⟨fun a ha => ?_, fun hnone => ?_⟩
    · obtain ⟨stamp, hx⟩ := (h key t.look a hnow).1 ha
      show Reply.mk (.result (.ok ((b.inForce? ttl t.look key).map _))) _ _ = _
      rw [hx]
      rfl
    · show Reply.mk (.result (.ok ((b.inForce? ttl t.look key).map _))) _ _ = _
      cases hx : b.inForce? ttl t.look key with
      | none => rfl
      | some x => exact absurd ((h key t.look x.2 hnow).2 ⟨x.1, hx⟩) (hnone x.2)
  | clear key => rfl

end Tells

section Runs

variable {config : IdempotencyConfig} {codec : String → ResultCodec ρ} {s : Site ω}
variable {b b' : Book ω ρ}
variable {calls calls' before rest : List (Call ω ρ × Readings)} {ttl : Span} {now : Moment}

theorem look_le {x y : Call ω ρ × Readings} (h : ∀ i, x.2.after i ≤ y.2.look) :
    x.2.look ≤ y.2.look :=
  Moment.le_trans (x.2.before_le_after 0 0) (h 0)

/-- A run on the book is right, by induction on the calls. -/
theorem Tells.transcript {past : List (Entry ω ρ)} {w : ω}
    (h : ∀ x ∈ calls, Tells ttl b past x.2.look) (hout : left w past = b.outside)
    (horder : InOrder calls) :
    ∀ earlier e later, b.transcript ttl calls = earlier ++ e :: later →
      e.Right ttl (past ++ earlier) (left w (past ++ earlier)) := by
  induction calls generalizing b past with
  | nil =>
    intro earlier e later hsplit
    simp [Book.transcript] at hsplit
  | cons x calls ih =>
    obtain ⟨c, t⟩ := x
    obtain ⟨hnext, horder⟩ := List.pairwise_cons.1 horder
    have hfirst : Tells ttl b past t.look := h _ (.head _)
    intro earlier e later hsplit
    rw [Book.transcript] at hsplit
    cases earlier with
    | nil =>
      obtain ⟨rfl, -⟩ := List.cons.inj hsplit
      rw [List.append_nil, hout]
      exact hfirst.right c
    | cons e' earlier =>
      obtain ⟨rfl, hrest⟩ := List.cons.inj hsplit
      have hstep := hfirst.serve c
      rw [List.append_cons]
      refine ih (fun y hy => hstep.mono (look_le (hnext y hy))) ?_ horder earlier e later hrest
      rw [left_append_singleton]
      exact b.outside_serve ttl t.look t.stamp c

/-- From a site that is kept in a book, by induction on the calls. -/
theorem transcript_eq (hkeeps : ∀ x ∈ calls, Keeps config codec none s.records b x.2.look)
    (hs : s.outside = b.outside) (horder : InOrder calls)
    (hcodec : (∀ e ∈ s.transcript config codec calls, e.Faithful codec) ∨
      ∀ e ∈ b.transcript config.recordTtl calls, e.Faithful codec) :
    s.transcript config codec calls = b.transcript config.recordTtl calls := by
  induction calls generalizing s b with
  | nil => rfl
  | cons x calls ih =>
    obtain ⟨c, t⟩ := x
    obtain ⟨hnext, horder⟩ := List.pairwise_cons.1 horder
    have hserve := (hkeeps _ (.head _)).serve hs c
    have hfaithful : ∀ a, .ok a ∈ (b.serve config.recordTtl t.look t.stamp c).1.outcomes →
        (codec c.key).RoundTrips a := by
      rcases hcodec with hcodec | hcodec
      · rw [← hserve.reply]
        exact hcodec _ (.head _)
      · exact hcodec _ (.head _)
    rw [Site.transcript, Book.transcript, hserve.reply]
    refine congrArg _ (ih (fun y hy => hserve.keeps hfaithful _ (hnext y hy))
      hserve.outside horder ?_)
    exact hcodec.imp (fun h e he => h e (.tail _ he)) fun h e he => h e (.tail _ he)

theorem transcript_append (config : IdempotencyConfig) (codec : String → ResultCodec ρ) (s : Site ω)
    (before rest : List (Call ω ρ × Readings)) :
    s.transcript config codec (before ++ rest) =
      s.transcript config codec before ++
        (s.run config codec before).transcript config codec rest := by
  induction before generalizing s with
  | nil => rfl
  | cons x before ih => exact congrArg _ (ih (s.serve config codec x.1 x.2).2)

/-- In the course of a run there is a book as well. -/
theorem exists_book (hkeeps : ∀ x ∈ before ++ rest, Keeps config codec none s.records b x.2.look)
    (hs : s.outside = b.outside) (horder : InOrder (before ++ rest))
    (hcodec : ∀ e ∈ s.transcript config codec before, e.Faithful codec) :
    ∃ b' : Book ω ρ, (∀ x ∈ rest,
      Keeps config codec none (s.run config codec before).records b' x.2.look) ∧
      (s.run config codec before).outside = b'.outside := by
  induction before generalizing s b with
  | nil => exact ⟨b, hkeeps, hs⟩
  | cons x before ih =>
    obtain ⟨c, t⟩ := x
    obtain ⟨hnext, horder⟩ := List.pairwise_cons.1 horder
    have hserve := (hkeeps _ (.head _)).serve hs c
    have hfaithful : ∀ a, .ok a ∈ (b.serve config.recordTtl t.look t.stamp c).1.outcomes →
        (codec c.key).RoundTrips a := by
      rw [← hserve.reply]
      exact hcodec _ (.head _)
    exact ih (fun y hy => hserve.keeps hfaithful _ (hnext y hy)) hserve.outside horder
      fun e he => hcodec e (.tail _ he)

theorem Keeps.of_lines_eq {records : Records} (h : Keeps config codec none records b now)
    (hb : b'.lines = b.lines) :
    Keeps config codec none records b' now := by
  intro key hkey
  rw [Book.inForce?_congr hb]
  exact h key hkey

/-- A failure leaves no line. -/
theorem Book.lines_of_failed {look stamp : Moment} {c : Call ω ρ} {f : Failure}
    (h : .error f ∈ (b.serve ttl look stamp c).1.outcomes) :
    (b.serve ttl look stamp c).2.lines = b.lines := by
  cases c with
  | execute exclusive key operation =>
    cases hx : b.inForce? ttl look key with
    | some x => rw [serve_of_inForce exclusive hx]
    | none =>
      rw [serve_of_not_inForce exclusive hx] at h ⊢
      cases hrun : operation b.outside with
      | mk x w =>
        rw [hrun] at h
        cases x with
        | ok a => simp [perform] at h
        | error e => rfl
  | wasCompleted key => rfl
  | getResult key => rfl
  | clear key => simp [serve] at h

theorem Book.serve_plain (b : Book ω ρ) (ttl : Span) (look stamp : Moment) (c : Call ω ρ) :
    b.serve ttl look stamp c.plain = b.serve ttl look stamp c := by
  cases c <;> rfl

/-- On the book the variants are the same. -/
theorem Book.transcript_view (h : calls'.map essence = calls.map essence) :
    (b.transcript ttl calls').map Entry.view = (b.transcript ttl calls).map Entry.view := by
  induction calls generalizing b calls' with
  | nil =>
    rw [List.map_nil, List.map_eq_nil_iff] at h
    rw [h]
  | cons x calls ih =>
    cases calls' with
    | nil => simp at h
    | cons x' calls' =>
      obtain ⟨c, t⟩ := x
      obtain ⟨c', t'⟩ := x'
      obtain ⟨hfirst, hrest⟩ := List.cons.inj h
      simp only [essence, Prod.mk.injEq] at hfirst
      obtain ⟨hc, hlook, hstamp⟩ := hfirst
      have hserve : b.serve ttl t'.look t'.stamp c' = b.serve ttl t.look t.stamp c := by
        rw [← b.serve_plain, hc, hlook, hstamp, b.serve_plain]
      simp only [transcript, List.map_cons, hserve, ih hrest, Entry.view, hc]

theorem Entry.Faithful.of_view {e e' : Entry ω ρ} (h : e.Faithful codec) (hv : e.view = e'.view) :
    e'.Faithful codec := by
  obtain ⟨hc, hr⟩ := Prod.mk.inj hv
  have hkey : ∀ c : Call ω ρ, c.plain.key = c.key := by
    intro c
    cases c <;> rfl
  intro a ha
  rw [← hkey, ← hc, hkey]
  exact h a (hr ▸ ha)

theorem Keeps.blank (config : IdempotencyConfig) (codec : String → ResultCodec ρ) (interval : Nat)
    (w : ω) (now : Moment) :
    Keeps config codec none (.empty interval) (Book.blank w) now := fun _ _ => .nothing

theorem Tells.blank (ttl : Span) (w : ω) (now : Moment) :
    Tells ttl (Book.blank w : Book ω ρ) [] now := by
  intro key now a _
  simp [InForce, Book.inForce?, Book.blank]

/-- A call whose operation failed is as good as not made, but for what the operation did outside. -/
theorem transcript_of_failed {c : Call ω ρ} {t : Readings} {f : Failure} {w : ω} {interval : Nat}
    (horder : InOrder (before ++ (c, t) :: rest))
    (hcodec :
      ∀ e ∈ Site.transcript config codec ⟨.empty interval, w⟩ (before ++ (c, t) :: rest),
        e.Faithful codec)
    (hs : s = Site.run config codec ⟨.empty interval, w⟩ before)
    (hfailed : .error f ∈ (s.serve config codec c t).1.outcomes) :
    (s.serve config codec c t).2.transcript config codec rest =
      Site.transcript config codec ⟨s.records, (s.serve config codec c t).2.outside⟩ rest := by
  subst hs
  rw [transcript_append] at hcodec
  obtain ⟨b, hkeeps, hout⟩ :=
    exists_book (fun y _ => Keeps.blank config codec interval w y.2.look) rfl horder
      fun e he => hcodec e (List.mem_append_left _ he)
  obtain ⟨hnext, hafter⟩ := List.pairwise_cons.1 (List.pairwise_append.1 horder).2.1
  let s := Site.run config codec ⟨.empty interval, w⟩ before
  let x := s.serve config codec c t
  let b' := (b.serve config.recordTtl t.look t.stamp c).2
  have hserve := (hkeeps _ (.head _)).serve hout c
  have hrest : ∀ e ∈ x.2.transcript config codec rest, e.Faithful codec :=
    fun e he => hcodec e (List.mem_append_right _ (.tail _ he))
  -- with the call and without it, what comes later is on the same book
  have hcalled : x.2.transcript config codec rest = b'.transcript config.recordTtl rest := by
    refine transcript_eq (fun y hy => hserve.keeps ?_ _ (hnext y hy))
      hserve.outside hafter (.inl hrest)
    rw [← hserve.reply]
    exact hcodec _ (List.mem_append_right _ (.head _))
  have hlines : b'.lines = b.lines := Book.lines_of_failed (hserve.reply ▸ hfailed)
  have hkept : ∀ y ∈ rest, Keeps config codec none s.records b' y.2.look :=
    fun y hy => (hkeeps y (.tail _ hy)).of_lines_eq hlines
  have hfaithful : ∀ e ∈ b'.transcript config.recordTtl rest, e.Faithful codec := hcalled ▸ hrest
  exact hcalled.trans
    (transcript_eq (s := ⟨s.records, x.2.outside⟩) hkept hserve.outside hafter
      (.inr hfaithful)).symm

/-- What is seen of a run does not depend on the variants of its calls. -/
theorem transcript_of_essence {config' : IdempotencyConfig} {w : ω} {interval interval' : Nat}
    (horder : InOrder calls)
    (hcodec : ∀ e ∈ Site.transcript config codec ⟨.empty interval, w⟩ calls, e.Faithful codec)
    (httl : config'.recordTtl = config.recordTtl)
    (hessence : calls'.map essence = calls.map essence) (horder' : InOrder calls') :
    (Site.transcript config' codec ⟨.empty interval', w⟩ calls').map Entry.view =
      (Site.transcript config codec ⟨.empty interval, w⟩ calls).map Entry.view := by
  have hlog := transcript_eq (fun x _ => Keeps.blank config codec interval w x.2.look)
      rfl horder (.inl hcodec)
  have hview : ((Book.blank w).transcript config.recordTtl calls').map Entry.view =
      ((Book.blank w).transcript config.recordTtl calls).map Entry.view :=
        Book.transcript_view hessence
  have hfaithful : ∀ e ∈ (Book.blank w).transcript config.recordTtl calls', e.Faithful codec := by
    intro e he
    have hmem : e.view ∈ ((Book.blank w).transcript config.recordTtl calls').map Entry.view :=
        List.mem_map_of_mem he
    rw [hview] at hmem
    obtain ⟨e', he', hv⟩ := List.mem_map.1 hmem
    rw [← hlog] at he'
    exact (hcodec e' he').of_view hv
  rw [← httl] at hfaithful
  have hlog' : Site.transcript config' codec ⟨.empty interval', w⟩ calls' = _ :=
    transcript_eq (fun x _ => Keeps.blank config' codec interval' w x.2.look) rfl horder'
      (.inr hfaithful)
  rw [hlog', httl, hview, hlog]

/-- **Calls one after the other.** While calls do not overlap and the clock does not step back, an
operation is invoked if and only if no earlier success of its key is in force, and else its result
is replayed. A failure makes no difference to what is answered later. Plain calls may be replaced by
exclusive ones or the other way round, with markers that live as long as you like: whoever looks and
stamps at the same times gets the same answers from the same invocations. -/
theorem runs_iff_not_in_force (config : IdempotencyConfig) (codec : String → ResultCodec ρ)
    (interval : Nat) (w : ω) (calls : List (Call ω ρ × Readings)) (horder : InOrder calls)
    (hcodec : ∀ e ∈ Site.transcript config codec ⟨.empty interval, w⟩ calls, e.Faithful codec) :
    (∀ earlier e later, Site.transcript config codec ⟨.empty interval, w⟩ calls =
      earlier ++ e :: later →
      e.Right config.recordTtl earlier (left w earlier)) ∧
    (∀ before c t after f, calls = before ++ (c, t) :: after →
      let s : Site ω := Site.run config codec ⟨.empty interval, w⟩ before
      let x := s.serve config codec c t
      .error f ∈ x.1.outcomes →
        x.2.transcript config codec after =
          Site.transcript config codec ⟨s.records, x.2.outside⟩ after) ∧
    (∀ interval' config' calls', config'.recordTtl = config.recordTtl →
      calls'.map essence = calls.map essence →
      InOrder calls' →
      (Site.transcript config' codec ⟨.empty interval', w⟩ calls').map Entry.view =
        (Site.transcript config codec ⟨.empty interval, w⟩ calls).map Entry.view) := by
  refine ⟨?_, ?_, ?_⟩
  · rw [transcript_eq (fun x _ => Keeps.blank config codec interval w x.2.look) rfl horder
      (.inl hcodec)]
    exact Tells.transcript (fun x _ => Tells.blank _ w x.2.look) rfl horder
  · intro before c t after f hcalls s x hfailed
    subst hcalls
    exact transcript_of_failed horder hcodec rfl hfailed
  · intro interval' config' calls' httl hessence horder'
    exact transcript_of_essence horder hcodec httl hessence horder'

end Runs

/-- A call during which the clock stands still. -/
def Readings.still (t : Moment) : Readings :=
  ⟨fun _ => t, fun _ => t, fun _ _ _ => Moment.le_refl t, fun _ _ => Moment.le_refl t,
    fun _ _ _ => Moment.le_refl t⟩

/-- Calls at times in milliseconds. -/
def standing (calls : List (Call ω ρ × Nat)) : List (Call ω ρ × Readings) :=
  calls.map fun x => (x.1, .still (.ofMillis x.2))

theorem inOrder_standing {calls : List (Call ω ρ × Nat)}
    (h : (calls.map Prod.snd).Pairwise (· ≤ ·)) :
    InOrder (standing calls) := by
  refine List.pairwise_map.2 ((List.pairwise_map.1 h).imp ?_)
  intro x y hxy i
  show (x.2 : Int) * 1000000 ≤ (y.2 : Int) * 1000000
  omega

/-- An operation that succeeds from the second time on, and counts how often it was invoked. -/
def secondTry : Nat → Except Failure String × Nat
  | 0 => (.error (.inProgress "k"), 1)
  | n + 1 => (.ok "done", n + 2)

/-- A failure, a success and a replay within a minute; then the record is past its time, and once it
is cleared. -/
def sevenCalls (exclusive : Bool) : List (Call Nat String × Readings) :=
  standing [(.execute exclusive "k" secondTry, 0), (.execute true "k" secondTry, 1000),
    (.execute exclusive "k" secondTry, 60000), (.wasCompleted "k", 60000),
    (.execute exclusive "k" secondTry, 61000), (.clear "k", 62000),
    (.execute exclusive "k" secondTry, 62000)]

theorem sevenCalls_inOrder (exclusive : Bool) : InOrder (sevenCalls exclusive) := by
  cases exclusive <;> exact inOrder_standing (by decide)

/-- The guard of the calls: records live a minute, markers half of it. -/
def minuteConfig : IdempotencyConfig := ⟨.ofSecs 60, .ofSecs 30, "idempotency:"⟩

theorem sevenCalls_faithful :
    ∀ e ∈ Site.transcript minuteConfig (fun _ => .json String) ⟨.empty 2, 0⟩ (sevenCalls true),
      e.Faithful fun _ => .json String := by
  have hdone :
      ((Site.transcript minuteConfig (fun _ => .json String) ⟨.empty 2, 0⟩
        (sevenCalls true)).all fun e =>
          e.reply.outcomes.all fun x => x.toOption.all fun a => a = "done") = true := by decide
  have hjson : (ResultCodec.json String).RoundTrips "done" :=
      ⟨Text.bytes "\"done\"", by decide, by decide⟩
  intro e he a ha
  have hentry := List.all_eq_true.1 (List.all_eq_true.1 hdone e he) (.ok a) ha
  obtain rfl : a = "done" := by simpa [Except.toOption] using hentry
  exact hjson

/-- The operation is invoked four times, however the calls are made and however long markers
live. -/
theorem runs_iff_not_in_force_sevenCalls :
    let log := Site.transcript minuteConfig (fun _ => .json String) ⟨.empty 2, 0⟩ (sevenCalls true)
    InOrder (sevenCalls true) ∧ (∀ e ∈ log, e.Faithful fun _ => .json String) ∧
    InOrder (sevenCalls false) ∧
      log.map (fun e => e.reply.outcomes.length) = [1, 1, 0, 0, 1, 0, 1] ∧
      (∀ earlier e later, log = earlier ++ e :: later →
        e.Right (.ofSecs 60) earlier (left 0 earlier)) ∧
      (Site.transcript ⟨.ofSecs 60, .zero, "other:"⟩ (fun _ => .json String) ⟨.empty 1000, 0⟩
        (sevenCalls false)).map Entry.view = log.map Entry.view := by
  intro log
  have horder := sevenCalls_inOrder true
  have hplain := sevenCalls_inOrder false
  obtain ⟨hright, -, hvariants⟩ :=
    runs_iff_not_in_force minuteConfig (fun _ => .json String) 2 0 (sevenCalls true)
      horder sevenCalls_faithful
  exact ⟨horder, sevenCalls_faithful, hplain, by decide, hright,
    hvariants 1000 ⟨.ofSecs 60, .zero, "other:"⟩ (sevenCalls false) rfl rfl hplain⟩

end OneByOne

end GuardedWrites

import GuardedWrites.Proofs.Mutation.Outcomes
import GuardedWrites.Rate.Exact

/-!
# Mutations one after the other

Guarded mutations that are made outside any transaction, each one when the one before is over.

* `Pipeline.transcript` — the mutations, each with what came of it;
* `Pipeline.Entry.Right` — what has to come of a mutation after earlier ones;
* `Pipeline.Kept.serve` — what the parts hold after a mutation is again what its history says;
* `Pipeline.each_key_commits_once` — every run.
-/

namespace GuardedWrites

open Shared

variable {ν ρ : Type}

namespace Pipeline

open Parts

/-- The call returned the result of its own work. -/
def Entry.executed (e : Entry ν ρ) : Bool :=
  match e.result with
  | some (.ok x) => x.wasExecuted
  | _ => false

/-- The call committed a transaction. -/
def Entry.Commits (P : Parts ν) (e : Entry ν ρ) : Prop :=
  (P.db e.before).commits < (P.db e.after).commits

variable [Amount ν] (P : Parts ν) (codec : String → ResultCodec ρ)

/-- Calls one after the other. -/
def transcript : World ν → List (Call ν ρ) → List (Entry ν ρ)
  | _, [] => []
  | w, c :: rest => serve P codec w c :: transcript (serve P codec w c).after rest

/-- The world after some calls. -/
def run (w : World ν) (calls : List (Call ν ρ)) : World ν :=
  calls.foldl (fun w c => (serve P codec w c).after) w

/-- Two states of a database that differ in nothing but how often transactions were begun and rolled
back. -/
structure Unchanged (db db' : Database) : Prop where
  rows : db'.rows = db.rows
  commits : db'.commits = db.commits
  opened : ∀ m, db'.opened.get? m = db.opened.get? m

/-- What a call has to be after earlier ones. -/
structure Entry.Right (past : List (Entry ν ρ)) (e : Entry ν ρ) : Prop where
  returns : ∃ r, e.result = some r
  throttled : e.Throttled P → (∃ secs, e.result = some (.error (.rateLimitExceeded secs))) ∧
    e.after.shared = e.before.shared ∧ Only OfLimiter e.before e.after ∧
    ¬ Once Deed.IsWork e.before e.after
  once : ∀ e' ∈ past, ∀ key, e'.call.key? = some key → e.call.key? = some key →
    e'.Commits P → ¬ e.Commits P
  replayed : ∀ e' ∈ past, ∀ key, e'.call.key? = some key → e.call.key? = some key → e'.Commits P →
    ¬ e.Throttled P → ∃ a, e'.result = some (.ok ⟨true, a⟩) ∧ e.result = some (.ok ⟨false, a⟩) ∧
      e.after.shared = e.before.shared ∧ ¬ Once Deed.IsWork e.before e.after
  failed : ∀ f, e.result = some (.error f) → e.after.shared.records = e.before.shared.records ∧
    ∀ i, Unchanged (e.before.shared.databases i) (e.after.shared.databases i)
  invoked : e.Passes P →
    (∀ e' ∈ past, ∀ key, e'.call.key? = some key → e.call.key? = some key → ¬ e'.Commits P) →
    Once Deed.IsWork e.before e.after
  commits : (P.db e.after).commits = (P.db e.before).commits + if e.executed then 1 else 0

/-! ### Histories -/

section History

variable {P codec} {w w₀ : World ν} {past : List (Entry ν ρ)} {e : Entry ν ρ}

omit [Amount ν] in
theorem Entry.executed_iff : e.executed = true ↔ ∃ a, e.result = some (.ok ⟨true, a⟩) := by
  unfold Entry.executed
  constructor
  · intro h
    split at h
    · rename_i x hx
      obtain ⟨b, a⟩ := x
      obtain rfl : b = true := h
      exact ⟨a, hx⟩
    · cases h
  · rintro ⟨a, ha⟩
    rw [ha]

omit [Amount ν] in
theorem Entry.executed_eq_false (h : ∀ a, e.result ≠ some (.ok ⟨true, a⟩)) :
    e.executed = false := by
  rw [Bool.eq_false_iff]
  intro hexec
  obtain ⟨a, ha⟩ := executed_iff.1 hexec
  exact h a ha

/-- What the limiter says is that a rule cannot be enforced, or else that the request passes or
not. -/
theorem Entry.exists_verdict (P : Parts ν) (e : Entry ν ρ) :
    ∃ r, e.verdict P = some r ∧ Checked P.rules r := by
  obtain ⟨r, w₁, n, hrun, hchecked, -⟩ :=
    enforce_yields (P := P) e.call.mutation.rateKey none e.before e.call.timer
  exact ⟨r, congrArg Prod.fst hrun, hchecked⟩

/-- Where one call passes, another one is throttled if it does not pass. -/
theorem Entry.throttled_of_error {e' : Entry ν ρ} (hpasses : e'.Passes P) {f : Failure}
    (h : e.verdict P = some (.error f)) : e.Throttled P := by
  obtain ⟨v, hv⟩ := hpasses
  obtain ⟨r', hr', hchecked'⟩ := e'.exists_verdict P
  obtain ⟨r, hr, hchecked⟩ := e.exists_verdict P
  cases hv.symm.trans hr'
  cases h.symm.trans hr
  rcases hchecked' with ⟨fault, -, hv'⟩ | ⟨hvalid, -⟩
  · cases hv'
  rcases hchecked with ⟨fault, hfault, -⟩ | ⟨-, ⟨v', hv'⟩ | ⟨secs, hsecs⟩⟩
  · rw [hvalid] at hfault
    cases hfault
  · cases hv'
  · cases hsecs
    exact ⟨secs, h⟩

/-- A call commits once if it returns the result of its own work, and else not at all. -/
theorem Course.commits (h : Course P codec e) :
    (P.db e.after).commits = (P.db e.before).commits + if e.executed then 1 else 0 := by
  cases h with
  | refused f verdict result shared only =>
    rw [Entry.executed_eq_false (by simp [result]), db_congr shared]
    rfl
  | replayed key a key? passes stored result shared only =>
    rw [Entry.executed_eq_false (by simp [result]), db_congr shared]
    rfl
  | failed f passes free result tried =>
    rw [Entry.executed_eq_false (by simp [result]), (tried.undone f rfl).2]
    rfl
  | performed a w passes free result tried databases log stored keeps leaves =>
    rw [Entry.executed_iff.2 ⟨a, result⟩, show P.db e.after = P.db w from congrFun databases _,
      tried.committed a rfl]
    rfl

theorem Course.returns (h : Course P codec e) : ∃ r, e.result = some r := by
  cases h with
  | refused f verdict result shared only => exact ⟨_, result⟩
  | replayed key a key? passes stored result shared only => exact ⟨_, result⟩
  | failed f passes free result tried => exact ⟨_, result⟩
  | performed a w passes free result tried databases log stored keeps leaves => exact ⟨_, result⟩

/-- A call that is throttled touches nothing but the limiter. -/
theorem Course.throttled (h : Course P codec e) (hthrottled : e.Throttled P) :
    (∃ secs, e.result = some (.error (.rateLimitExceeded secs))) ∧
    e.after.shared = e.before.shared ∧
      Only OfLimiter e.before e.after ∧ ¬ Once Deed.IsWork e.before e.after := by
  obtain ⟨secs, hsecs⟩ := hthrottled
  have hpass : ¬ e.Passes P := by
    rintro ⟨v, hv⟩
    cases hv.symm.trans hsecs
  cases h with
  | refused f verdict result shared only =>
    cases verdict.symm.trans hsecs
    exact ⟨⟨secs, result⟩, shared, only, (only.mono not_isWork_of_ofLimiter).not_once⟩
  | replayed key a key? passes stored result shared only => exact absurd passes hpass
  | failed f passes free result tried => exact absurd passes hpass
  | performed a w passes free result tried databases log stored keeps leaves =>
    exact absurd passes hpass

/-- A call that fails changes nothing that shows. -/
theorem Course.unchanged (h : Course P codec e) (hopen : ∀ m, (P.db e.before).opened.get? m = none)
    {f : Failure} (hf : e.result = some (.error f)) :
    e.after.shared.records = e.before.shared.records ∧
      ∀ i, Unchanged (e.before.shared.databases i) (e.after.shared.databases i) := by
  cases h with
  | refused f verdict result shared only =>
    rw [shared]
    exact ⟨rfl, fun i => ⟨rfl, rfl, fun m => rfl⟩⟩
  | replayed key a key? passes stored result shared only =>
    rw [shared]
    exact ⟨rfl, fun i => ⟨rfl, rfl, fun m => rfl⟩⟩
  | failed g passes free result tried =>
    refine ⟨tried.records, fun i => ?_⟩
    by_cases hi : i = P.home P.runner.store
    · rw [hi]
      exact ⟨(tried.undone g rfl).1, (tried.undone g rfl).2, fun m =>
        (tried.closed m).trans (hopen m).symm⟩
    · rw [tried.others i hi]
      exact ⟨rfl, rfl, fun m => rfl⟩
  | performed a w passes free result tried databases log stored keeps leaves =>
    rw [result] at hf
    cases hf

omit [Amount ν] in
theorem commits_iff
    (h : (P.db e.after).commits = (P.db e.before).commits + if e.executed then 1 else 0) :
    e.Commits P ↔ e.executed = true := by
  unfold Entry.Commits
  rw [h]
  cases e.executed <;> simp

/-- Some call with a key returned the result of its own work. -/
def Executed (past : List (Entry ν ρ)) (key : String) : Prop :=
  ∃ e ∈ past, e.call.key? = some key ∧ e.executed = true

/-- What the parts hold after some calls is what the history says: no transaction is open, as many
were committed as calls returned a result of their own work, and the results of these that have keys
are stored, and nothing else. -/
structure Kept (P : Parts ν) (codec : String → ResultCodec ρ) (w₀ : World ν)
    (past : List (Entry ν ρ)) (w : World ν) : Prop where
  closed : ∀ m, (P.db w).opened.get? m = none
  commits : (P.db w).commits = (P.db w₀).commits + past.countP Entry.executed
  courses : ∀ e ∈ past, Course P codec e
  stored : ∀ e ∈ past, ∀ key a, e.call.key? = some key → e.result = some (.ok ⟨true, a⟩) →
    Stored P codec w key a
  free : ∀ key, ¬ Executed past key → w.shared.records.table.get? (P.recordKey key) = none

namespace Kept

/-- A key has a result or no record. -/
theorem record (h : Kept P codec w₀ past w) (key : String) :
    w.shared.records.table.get? (P.recordKey key) = none ∨ ∃ a, Stored P codec w key a := by
  by_cases hkey : Executed past key
  · obtain ⟨e, he, hkey, hexec⟩ := hkey
    obtain ⟨a, ha⟩ := Entry.executed_iff.1 hexec
    exact .inr ⟨a, h.stored e he key a hkey ha⟩
  · exact .inl (h.free key hkey)

/-- The result of a call that committed is stored. -/
theorem of_commits (h : Kept P codec w₀ past w) {e' : Entry ν ρ} (he' : e' ∈ past) {key : String}
    (hkey : e'.call.key? = some key) (hcommits : e'.Commits P) :
    e'.Passes P ∧ ∃ a, e'.result = some (.ok ⟨true, a⟩) ∧ Stored P codec w key a := by
  have hcourse := h.courses e' he'
  obtain ⟨a, ha⟩ := Entry.executed_iff.1 ((commits_iff hcourse.commits).1 hcommits)
  refine ⟨?_, a, ha, h.stored e' he' key a hkey ha⟩
  cases hcourse with
  | refused f verdict result shared only =>
    rw [result] at ha
    cases ha
  | replayed key a key? passes stored result shared only => exact passes
  | failed f passes free result tried => exact passes
  | performed a w passes free result tried databases log stored keeps leaves => exact passes

/-- After a call that committed nothing, and left the records as they were. -/
theorem idle (h : Kept P codec w₀ past e.before) (hcourse : Course P codec e)
    (hexec : e.executed = false) (hclosed : ∀ m, (P.db e.after).opened.get? m = none)
    (hrecords : e.after.shared.records = e.before.shared.records)
    (hlog : e.before.log <+: e.after.log) :
    Kept P codec w₀ (past ++ [e]) e.after where
  closed := hclosed
  commits := by
    rw [hcourse.commits, h.commits, List.countP_append, List.countP_singleton, hexec]
    rfl
  courses := List.forall_mem_append.2 ⟨h.courses, List.forall_mem_singleton.2 hcourse⟩
  stored := by
    refine List.forall_mem_append.2 ⟨fun e' he' key a hkey ha =>
      (h.stored e' he' key a hkey ha).mono hrecords hlog,
      List.forall_mem_singleton.2 fun key a hkey ha => ?_⟩
    rw [Entry.executed_iff.2 ⟨a, ha⟩] at hexec
    cases hexec
  free key hnone := by
    rw [hrecords]
    refine h.free key fun hkey => hnone ?_
    obtain ⟨e', he', hkey, hexec'⟩ := hkey
    exact ⟨e', List.mem_append_left _ he', hkey, hexec'⟩

/-- **After one call** the parts hold again what the history says. -/
theorem serve (h : Kept P codec w₀ past e.before) (hcourse : Course P codec e) :
    Kept P codec w₀ (past ++ [e]) e.after := by
  have hcases := hcourse
  cases hcases with
  | refused f verdict result shared only =>
    exact h.idle hcourse (Entry.executed_eq_false (by simp [result])) (db_congr shared ▸ h.closed)
      (congrArg _ shared) only.isPrefix
  | replayed key a key? passes stored result shared only =>
    exact h.idle hcourse (Entry.executed_eq_false (by simp [result])) (db_congr shared ▸ h.closed)
      (congrArg _ shared) only.isPrefix
  | failed f passes free result tried =>
    exact h.idle hcourse (Entry.executed_eq_false (by simp [result]))
      tried.closed tried.records tried.worked.isPrefix
  | performed a w passes free result tried databases log stored keeps leaves =>
    have hexec : e.executed = true := Entry.executed_iff.2 ⟨a, result⟩
    refine ⟨?_, ?_, ?_, ?_, fun key hnone => ?_⟩
    · rw [show P.db e.after = P.db w from congrFun databases _]
      exact tried.closed
    · rw [hcourse.commits, h.commits, List.countP_append, List.countP_singleton, Nat.add_assoc]
    · exact List.forall_mem_append.2 ⟨h.courses, List.forall_mem_singleton.2 hcourse⟩
    · refine List.forall_mem_append.2 ⟨fun e' he' key b hkey hb => ?_,
        List.forall_mem_singleton.2 fun key b hkey hb => ?_⟩
      · -- an earlier result has another key, for the key of this call had no record
        have hstored := h.stored e' he' key b hkey hb
        exact keeps key b (fun hsame => hstored.ne_none (free key hsame)) hstored
      · obtain rfl : a = b := by simpa [result] using hb
        exact stored key hkey
    · refine leaves key (fun hsame => hnone ⟨e, by simp, hsame, hexec⟩)
        (h.free key fun hkey => hnone ?_)
      obtain ⟨e', he', hkey, hexec'⟩ := hkey
      exact ⟨e', List.mem_append_left _ he', hkey, hexec'⟩

/-- A key that has committed does not commit again. -/
theorem once (h : Kept P codec w₀ past e.before) (hcourse : Course P codec e) {e' : Entry ν ρ}
    (he' : e' ∈ past) {key : String} (hkey' : e'.call.key? = some key)
    (hkey : e.call.key? = some key) (hcommits' : e'.Commits P) :
    ¬ e.Commits P := by
  intro hcommits
  obtain ⟨a, ha⟩ := Entry.executed_iff.1 ((commits_iff hcourse.commits).1 hcommits)
  obtain ⟨-, b, -, hstored⟩ := h.of_commits he' hkey' hcommits'
  cases hcourse with
  | refused f verdict result shared only =>
    rw [result] at ha
    cases ha
  | replayed key a key? passes stored result shared only =>
    rw [result] at ha
    cases ha
  | failed f passes free result tried =>
    rw [result] at ha
    cases ha
  | performed a w passes free result tried databases log stored keeps leaves =>
    exact hstored.ne_none (free key hkey)

/-- Later calls of a key that has committed are throttled or replayed. -/
theorem replayed (h : Kept P codec w₀ past e.before) (hcourse : Course P codec e) {e' : Entry ν ρ}
    (he' : e' ∈ past) {key : String} (hkey' : e'.call.key? = some key)
    (hkey : e.call.key? = some key) (hcommits' : e'.Commits P) (hpass : ¬ e.Throttled P) :
    ∃ a, e'.result = some (.ok ⟨true, a⟩) ∧ e.result = some (.ok ⟨false, a⟩) ∧
      e.after.shared = e.before.shared ∧ ¬ Once Deed.IsWork e.before e.after := by
  obtain ⟨hpasses', a, ha, hstored⟩ := h.of_commits he' hkey' hcommits'
  cases hcourse with
  | refused f verdict result shared only =>
    -- an earlier call passed, so nothing is wrong with the rules
    exact absurd (Entry.throttled_of_error hpasses' verdict) hpass
  | replayed key' b key? passes stored result shared only =>
    cases key?.symm.trans hkey
    obtain rfl := hstored.unique stored
    exact ⟨a, ha, result, shared, only.not_once⟩
  | failed f passes free result tried => exact absurd (free key hkey) hstored.ne_none
  | performed b w passes free result tried databases log stored keeps leaves =>
    exact absurd (free key hkey) hstored.ne_none

/-- Work is invoked for a key that has not committed. -/
theorem invoked (h : Kept P codec w₀ past e.before) (hcourse : Course P codec e)
    (hpasses : e.Passes P)
    (hnever : ∀ e' ∈ past, ∀ key, e'.call.key? = some key → e.call.key? = some key →
      ¬ e'.Commits P) :
    Once Deed.IsWork e.before e.after := by
  cases hcourse with
  | refused f verdict result shared only =>
    obtain ⟨v, hv⟩ := hpasses
    cases verdict.symm.trans hv
  | replayed key a key? passes stored result shared only =>
    have hfree : ¬ Executed past key := by
      rintro ⟨e', he', hkey', hexec'⟩
      exact hnever e' he' key hkey' key? ((commits_iff (h.courses e' he').commits).2 hexec')
    exact absurd (h.free key hfree) stored.ne_none
  | failed f passes free result tried => exact tried.worked
  | performed a w passes free result tried databases log stored keeps leaves =>
    exact tried.worked.later log

/-- **One call is right** after the calls before it. -/
theorem right (h : Kept P codec w₀ past e.before) (hcourse : Course P codec e) :
    e.Right P past where
  returns := hcourse.returns
  throttled := hcourse.throttled
  once _ he' _ hkey' hkey hcommits' := h.once hcourse he' hkey' hkey hcommits'
  replayed _ he' _ hkey' hkey hcommits' hpass := h.replayed hcourse he' hkey' hkey hcommits' hpass
  failed _ hf := hcourse.unchanged h.closed hf
  invoked := h.invoked hcourse
  commits := hcourse.commits

end Kept

theorem prefix_calls (w : World ν) (calls : List (Call ν ρ)) :
    w.log <+: (run P codec w calls).log := by
  induction calls generalizing w with
  | nil => exact List.prefix_rfl
  | cons c calls ih => exact (prefix_run _ w c.timer).trans (ih _)

/-- From any history on, by induction on the calls. -/
theorem Kept.transcript {calls : List (Call ν ρ)} (h : Kept P codec w₀ past w)
    (hnone : NoneExpires (run P codec w calls).log)
    (hcodec : ∀ e ∈ transcript P codec w calls, ∀ key a, e.call.key? = some key →
      e.result = some (.ok ⟨true, a⟩) → (codec key).RoundTrips a) :
    Kept P codec w₀ (past ++ transcript P codec w calls) (run P codec w calls) ∧
    ∀ earlier e later, transcript P codec w calls = earlier ++ e :: later →
      e.Right P (past ++ earlier) := by
  induction calls generalizing w past with
  | nil =>
    refine ⟨by simpa [Pipeline.transcript, run] using h, fun earlier e later hsplit => ?_⟩
    simp [Pipeline.transcript] at hsplit
  | cons c calls ih =>
    have hlog : (Pipeline.serve P codec w c).after.log <+: (run P codec w (c :: calls)).log :=
        prefix_calls _ calls
    have hcourse : Course P codec (Pipeline.serve P codec w c) :=
      serve_course h.closed (fun key _ => h.record key) (hcodec _ (.head _)) (hnone.earlier hlog)
    have hnow : Kept P codec w₀ past (Pipeline.serve P codec w c).before := h
    obtain ⟨hkept, hright⟩ := ih (hnow.serve hcourse) hnone fun e he => hcodec e (.tail _ he)
    rw [← List.append_cons] at hkept
    refine ⟨hkept, fun earlier e later hsplit => ?_⟩
    rw [Pipeline.transcript] at hsplit
    cases earlier with
    | nil =>
      obtain ⟨rfl, -⟩ := List.cons.inj hsplit
      rw [List.append_nil]
      exact hnow.right hcourse
    | cons e' earlier =>
      obtain ⟨rfl, hrest⟩ := List.cons.inj hsplit
      rw [List.append_cons]
      exact hright earlier e later hrest

/-- **Each key commits once.** Of guarded mutations that are made one after the other, from records
without entries and a database without open transactions, every one is right: if it is throttled it
touches nothing but the limiter; if its key has committed before, it returns the result of then and
changes nothing; if it fails, nothing is different and its work may run again; and as many
transactions are committed as calls return results of their own work. No record is past its time
throughout, and results can be read back from what they are stored as. -/
theorem each_key_commits_once (P : Parts ν) (codec : String → ResultCodec ρ) (w : World ν)
    (calls : List (Call ν ρ)) (hopen : ∀ m, (P.db w).opened.get? m = none)
    (hrecords : ∀ rk, w.shared.records.table.get? rk = none)
    (hnone : NoneExpires (run P codec w calls).log)
    (hcodec : ∀ e ∈ transcript P codec w calls, ∀ key a, e.call.key? = some key →
      e.result = some (.ok ⟨true, a⟩) → (codec key).RoundTrips a) :
    (∀ earlier e later, transcript P codec w calls = earlier ++ e :: later → e.Right P earlier) ∧
    (P.db (run P codec w calls)).commits =
      (P.db w).commits + (transcript P codec w calls).countP Entry.executed := by
  have hstart : Kept P codec w [] w := ⟨hopen, rfl, by simp, by simp, fun key _ => hrecords _⟩
  obtain ⟨hkept, hright⟩ := hstart.transcript hnone hcodec
  exact ⟨hright, hkept.commits⟩

end History

/-- Four requests a minute, on one database, while the clocks stand still. -/
def fourAMinute : Parts Rat where
  settings := ⟨.standard, .standard⟩
  rules := [⟨none, .window ⟨4, 60⟩⟩]
  config := .standard
  runner :=
    { store := 0, ask := fun r _ => .ask (S := service (Outside Rat)) (.database 0 r)
      classify := Conflict.classify, backoff := .none
      draw := fun _ => 0, observe := fun _ _ _ => .done () }
  home _ := 0
  clock _ := .epoch
  limiterClock _ := .epoch
  asks _ _ := rfl
  observes _ _ _ := trivial

/-- No request yet, and nothing stored. -/
def atRest : World Rat := ⟨.initial, .fresh, []⟩

/-- A call of one user that inserts a row, and then declines or not. -/
def insertion (key id : String) (declines : Bool) : Call Rat String where
  mutation := { Mutation.new "user" "insert" with idempotencyKey := some key }
  work h _ := .call (.database h.store (.insert h.tx "orders" (.new id []))) fun _ =>
    .done (if declines then .error (.rejected "declined") else .ok "done")
  uses _ := ⟨⟨rfl, rfl⟩, fun _ => trivial⟩
  timer := 0

/-- A success and its replay, a failure and the success after it, and one request too many. -/
def fiveCalls : List (Call Rat String) :=
  [insertion "a" "1" false, insertion "a" "1" false, insertion "b" "2" true,
    insertion "b" "2" false, insertion "a" "1" false]

theorem fiveCalls_roundTrip :
    ∀ e ∈ transcript fourAMinute (fun _ => .json String) atRest fiveCalls, ∀ key a,
      e.call.key? = some key →
      e.result = some (.ok ⟨true, a⟩) → (ResultCodec.json String).RoundTrips a := by
  have hdone : ((transcript fourAMinute (fun _ => .json String) atRest fiveCalls).all fun e =>
      (e.result.bind Except.toOption).all fun x => x.result = "done") = true := by decide +kernel
  have hjson : (ResultCodec.json String).RoundTrips "done" :=
      ⟨Text.bytes "\"done\"", by decide, by decide⟩
  intro e he key a _ ha
  have hentry := List.all_eq_true.1 hdone e he
  rw [ha] at hentry
  obtain rfl : a = "done" := by simpa [Except.toOption] using hentry
  exact hjson

/-- Four of the calls pass the limiter, and two commit. -/
theorem each_key_commits_once_fiveCalls :
    let log := transcript fourAMinute (fun _ => .json String) atRest fiveCalls
    let last := run fourAMinute (fun _ => .json String) atRest fiveCalls
    (∀ m, (fourAMinute.db atRest).opened.get? m = none) ∧
      (∀ rk, atRest.shared.records.table.get? rk = none) ∧ NoneExpires last.log ∧
      (∀ e ∈ log, ∀ key a, e.call.key? = some key → e.result = some (.ok ⟨true, a⟩) →
        (ResultCodec.json String).RoundTrips a) ∧
      (∀ earlier e later, log = earlier ++ e :: later → e.Right fourAMinute earlier) ∧
      log.map (fun e => (e.verdict fourAMinute).any fun r => r.toOption.isSome) =
        [true, true, true, true, false] ∧
      log.map Entry.executed = [true, false, false, true, false] ∧
      (fourAMinute.db last).commits = 2 := by
  intro log last
  have hopen : ∀ m, (fourAMinute.db atRest).opened.get? m = none := fun _ => rfl
  have hrecords : ∀ rk, atRest.shared.records.table.get? rk = none := fun _ => rfl
  have hnone : NoneExpires last.log := by decide +kernel
  have hexecuted : log.map Entry.executed = [true, false, false, true, false] := by decide +kernel
  obtain ⟨hright, hcommits⟩ := each_key_commits_once fourAMinute (fun _ => .json String) atRest
    fiveCalls hopen hrecords hnone fiveCalls_roundTrip
  refine ⟨hopen, hrecords, hnone, fiveCalls_roundTrip, hright, by decide +kernel, hexecuted,
    hcommits.trans ?_⟩
  have hcount : log.countP Entry.executed = (log.map Entry.executed).countP id := by
    rw [List.countP_map]
    rfl
  rw [hcount, hexecuted]
  rfl

end Pipeline

end GuardedWrites

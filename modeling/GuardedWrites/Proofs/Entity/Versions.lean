import GuardedWrites.Entity.Room
import GuardedWrites.Entity.Store
import GuardedWrites.Proofs.Transaction.Backing
import GuardedWrites.Proofs.Transaction.Ownership

/-!
# Versions count updates

Any number of updates of one row are made at once, each in up to three attempts, with or without an
expected version. A call that succeeds has committed one patch on top of the row committed before,
so the version of the row counts the calls that succeeded, and each of them returns the version that
it made. Versions are numbers of 64 bits and are added up as such; they are exact as long as their
sum is one.

* `Stage`, `Follows` — how far a call has got, and what it may do next; `update_obeys` says that
  calls do so;
* `Race` — calls that update one row at once;
* `Race.Booked` — the row is the first one with the patches of those calls that have committed;
* `Race.versions_count_updates` — what that means for versions and results.
-/

namespace GuardedWrites

open Shared
open Database (Event History RowChange writes)
open TransactionalStore (Request)

variable {W : Service} {α : Type} [Entity α]

/-- What an update that affects a row does: the row is there, at the expected version if there is
one, and the transaction holds it with the patch. -/
theorem OpenTransaction.update_affected {t : OpenTransaction} {rows : Rows} {key : RowKey}
    {patch : Fields} {expected : Option UInt64} (h : (t.update rows key patch expected).1 ≠ 0) :
    ∃ row, (t.read rows key).1 = some row ∧ (∀ e, expected = some e → row.effectiveVersion = e) ∧
      (t.update rows key patch expected).2.writes.get? key = some (row.apply patch) := by
  unfold update at h ⊢
  cases hread : t.read rows key with
  | mk current t' =>
    cases current with
    | none => simp [hread] at h
    | some row =>
      simp only [hread] at h ⊢
      split at h
      · exact absurd rfl h
      · rename_i hexpected
        rw [if_neg hexpected]
        refine ⟨row, rfl, fun e he => ?_, by simp [Table.get?_insert]⟩
        simpa [he] using hexpected

/-! ### One call -/

/-- How far a call has got: between attempts, in transaction `n` before the update, after it, and
after the row was read back, in a transaction that can only be rolled back, and after the commit,
with the row committed. -/
inductive Stage where
  | idle
  | begun (n : Nat)
  | tried (n affected : Nat)
  | seen (n affected : Nat) (current : Option Row)
  | doomed (n : Nat)
  | committed (row : Row)

/-- The transaction that a call is in. -/
def Stage.tx? : Stage → Option Nat
  | .begun n | .tried n _ | .seen n _ _ | .doomed n => some n
  | _ => none

/-- What a call does: it tries its patch in a transaction, reads the row, and commits only if the
row was affected and is there. -/
inductive Follows (store : Nat) (key : RowKey) (patch? : Option Fields) (expected : Option UInt64) :
    Stage → Deed (service W) → Stage → Prop
  | aside (m : Stage) (x : Deed (service W)) (hx : x.Aside) :
      Follows store key patch? expected m x m
  | begun (c : TransactionContext) (n : Nat) :
    Follows store key patch? expected .idle (.call (.database store (.begin c)) (.ok n)) (.begun n)
  | refused (c : TransactionContext) (e : StoreError) :
    Follows store key patch? expected .idle (.call (.database store (.begin c)) (.error e)) .idle
  | tried (n affected : Nat) (patch : Fields) (hpatch : patch? = some patch) :
    Follows store key patch? expected (.begun n)
      (.call (.database store (.update n key.1 key.2 patch expected)) (.ok affected))
        (.tried n affected)
  | untried (n : Nat) (patch : Fields) (e : StoreError) :
    Follows store key patch? expected (.begun n)
      (.call (.database store (.update n key.1 key.2 patch expected)) (.error e)) (.doomed n)
  | seen (n affected : Nat) (current : Option Row) :
    Follows store key patch? expected (.tried n affected)
      (.call (.database store (.fetch n key.1 key.2)) (.ok current)) (.seen n affected current)
  | unseen (n affected : Nat) (e : StoreError) :
    Follows store key patch? expected (.tried n affected)
      (.call (.database store (.fetch n key.1 key.2)) (.error e)) (.doomed n)
  | committed (n affected : Nat) (row : Row) (haffected : affected ≠ 0) :
    Follows store key patch? expected (.seen n affected (some row))
      (.call (.database store (.commit n)) (.ok ())) (.committed row)
  | failed (n affected : Nat) (row : Row) (e : StoreError) :
    Follows store key patch? expected (.seen n affected (some row))
      (.call (.database store (.commit n)) (.error e)) .idle
  | rolledBack (m : Stage) (n : Nat) (hm : m.tx? = some n) (x : Except StoreError Unit) :
    Follows store key patch? expected m (.call (.database store (.rollback n)) x) .idle

/-- What a call asks a database for, it asks in its own transaction. -/
theorem Follows.tx?_cases {home : Nat → Nat} {store : Nat} {key : RowKey} {patch? : Option Fields}
    {expected : Option UInt64} {m m' : Stage} {x : Deed (service W)} {t : Nat × Nat}
    (h : Follows store key patch? expected m x m') (hx : x.tx? home = some t) :
    ∃ n, m.tx? = some n ∧ t = (home store, n) := by
  cases h with
  | aside m x haside => simp [haside.tx?_eq_none] at hx
  | begun c n => cases hx
  | refused c e => cases hx
  | tried n affected patch hpatch => exact ⟨n, rfl, (Option.some.inj hx).symm⟩
  | untried n patch e => exact ⟨n, rfl, (Option.some.inj hx).symm⟩
  | seen n affected current => exact ⟨n, rfl, (Option.some.inj hx).symm⟩
  | unseen n affected e => exact ⟨n, rfl, (Option.some.inj hx).symm⟩
  | committed n affected row haffected => exact ⟨n, rfl, (Option.some.inj hx).symm⟩
  | failed n affected row e => exact ⟨n, rfl, (Option.some.inj hx).symm⟩
  | rolledBack m n hm x => exact ⟨n, hm, (Option.some.inj hx).symm⟩

/-- The only step of a call that commits. -/
theorem Follows.of_commit? {home : Nat → Nat} {store : Nat} {key : RowKey} {patch? : Option Fields}
    {expected : Option UInt64} {m m' : Stage} {x : Deed (service W)} {t : Nat × Nat}
    (h : Follows store key patch? expected m x m') (hx : x.commit? home = some t) :
    ∃ n affected row, affected ≠ 0 ∧ m = .seen n affected (some row) ∧
      x = .call (.database store (.commit n)) (.ok ()) := by
  cases h with
  | aside m x haside => simp [haside.commit?_eq_none] at hx
  | committed n affected row haffected => exact ⟨n, affected, row, haffected, rfl, rfl⟩
  | _ => cases hx

/-- How a call ends: with what it reads out of the row that it committed, or with a failure in no
transaction. -/
def Settles : Stage → Except Failure (Versioned α) → Prop
  | .committed row, .ok v => Entity.decode row = .ok v
  | .idle, .error _ => True
  | _, _ => False

namespace EntityStore

variable {R : Runner (Action W)} {id : String} {patch : Fields} {expected : Option UInt64}

theorem of_judgeUpdate {affected : Nat} {current : Option Row} {v : Versioned α}
    (h : judgeUpdate α id affected current expected = .ok v) :
    affected ≠ 0 ∧ ∃ row, current = some row ∧ Entity.decode row = .ok v := by
  cases affected with
  | zero => cases current <;> cases expected <;> cases h
  | succ n =>
    cases current with
    | none => cases h
    | some row => exact ⟨Nat.succ_ne_zero n, row, rfl, h⟩

/-- The result of an update, given the answer to the read. -/
def judged (id : String) (affected : Nat) (expected : Option UInt64) :
    Except StoreError (Option Row) → Except Failure (Versioned α)
  | .error e => .error (.store e)
  | .ok current => judgeUpdate α id affected current expected

/-- A decoded entity has the version of its row. -/
theorem version_of_decode {row : Row} {v : Versioned α} (h : Entity.decode row = .ok v) :
    v.version = row.effectiveVersion := by
  unfold Entity.decode at h
  split at h
  · cases h
    rfl
  · cases h

theorem updateWork_eq (hR : Discreet R) (h : Handle) (scope : Scope) :
    updateWork α R id patch expected h scope =
      .call (.database R.store (.update h.tx (Entity.table α) id patch expected)) fun x =>
        match x with
        | .error e => .done (.error (.store e))
        | .ok affected => .call (.database R.store (.fetch h.tx (Entity.table α) id)) fun y =>
          .done (judged id affected expected y) := by
  have hupdate := hR.asks (.update h.tx (Entity.table α) id patch expected) scope
  have hfetch := hR.asks (.fetch h.tx (Entity.table α) id) scope
  unfold updateWork Runner.update Runner.fetch
  simp only [bind, ReaderT.bind]
  rw [hupdate]
  refine congrArg (Program.call (S := service W) _) (funext fun x => ?_)
  rcases x with e | affected
  · rfl
  · show Program.bind (R.ask _ scope) _ = _
    rw [hfetch]
    refine congrArg (Program.call (S := service W) _) (funext fun y => ?_)
    rcases y with e | current <;> rfl

/-- The work of an update and what follows it keep to the stages. -/
theorem updateWork_obeys (hR : Discreet R) (h : Handle) (hstore : h.store = R.store) (scope : Scope)
    {patch? : Option Fields} (hpatch : patch? = some patch) :
    ((updateWork α R id patch expected h scope).bind (Runs.finish h)).Obeys
      (Follows R.store (Entity.table α, id) patch? expected) Settles (.begun h.tx) := by
  have hrollback : ∀ m (f : Failure), m.tx? = some h.tx →
      (Runs.finish h (.error f) : Program (service W) (Except Failure (Versioned α))).Obeys
        (Follows R.store (Entity.table α, id) patch? expected) Settles m := by
    intro m f hm x
    exact ⟨.idle, hstore ▸ .rolledBack m h.tx hm x, trivial⟩
  rw [updateWork_eq hR]
  intro x
  rcases x with e | affected
  · exact ⟨.doomed h.tx, .untried h.tx patch e, hrollback _ _ rfl⟩
  refine ⟨.tried h.tx affected, .tried h.tx affected patch hpatch, fun y => ?_⟩
  rcases y with e | current
  · exact ⟨.doomed h.tx, .unseen h.tx affected e, hrollback _ _ rfl⟩
  refine ⟨.seen h.tx affected current, .seen h.tx affected current, ?_⟩
  show Program.Obeys _ _ _ (Runs.finish h (judgeUpdate α id affected current expected))
  cases hv : judgeUpdate α id affected current expected with
  | error f => exact hrollback _ _ rfl
  | ok v =>
    obtain ⟨haffected, row, rfl, hdecode⟩ := of_judgeUpdate hv
    intro z
    rcases z with e | u
    · exact ⟨.idle, hstore ▸ .failed h.tx affected row e, trivial⟩
    · exact ⟨.committed row, hstore ▸ .committed h.tx affected row haffected, hdecode⟩

/-- An update keeps to the stages, from the first attempt to the last. -/
theorem update_obeys (hR : Discreet R) (id : String) (changes : Entity.Changes α)
    (expected : Option UInt64) :
    (update R id changes expected none).Obeys
      (Follows R.store (Entity.table α, id) (Entity.patch changes).toOption expected)
      Settles .idle := by
  unfold update
  cases hpatch : Entity.patch changes with
  | error f => trivial
  | ok patch =>
    have haside : ∀ m (r : Shared.Request W) (x : Reply W r), r.Aside →
        Follows R.store (Entity.table α, id)
          (some patch) expected m (.call (S := service W) r x) m := by
      intro m r x hr
      refine .aside m _ ?_
      cases r with
      | database i r => exact hr.elim
      | _ => trivial
    refine Runs.obeys_run (I := fun m => m = .idle) haside (fun m => .aside m _ trivial) hR.observes
      (fun n m hm => ?_) (fun m f hm => ?_) rfl rfl
    · subst hm
      rw [Runs.attempt_eq hR]
      intro x
      rcases x with e | tx
      · exact ⟨.idle, .refused _ e, trivial⟩
      · exact ⟨.begun tx, .begun _ tx, updateWork_obeys hR ⟨R.store, tx, _⟩ rfl _ rfl⟩
    · cases m with
      | idle => rfl
      | _ => exact hm.elim

end EntityStore

/-! ### Versions as numbers -/

/-- Words are added exactly as long as the sum is one. -/
theorem toNat_add_ofNat {v : UInt64} {n : Nat} (h : v.toNat + n < UInt64.size) :
    (v + .ofNat n).toNat = v.toNat + n := by
  rw [UInt64.toNat_add, UInt64.toNat_ofNat_of_lt' (by omega)]
  exact Nat.mod_eq_of_lt h

/-- A version above another one by one is not the first after the largest. -/
theorem toNat_of_eq_add_one {v e : UInt64} (h : v = e + 1) (hv : v.toNat ≠ 0) :
    v.toNat = e.toNat + 1 := by
  have hsmall := e.toNat_lt
  rw [h, UInt64.toNat_add, UInt64.toNat_one] at hv ⊢
  omega

/-! ### Calls at once -/

/-- A call of an update: the runner, the changes, and the expected version. -/
structure UpdateCall (W : Service) (α : Type) [Entity α] where
  runner : Runner (Action W)
  changes : Entity.Changes α
  expected : Option UInt64

/-- A crowd whose programs are calls of updates. -/
abbrev UpdateCrowd (W : Service) (α : Type) :=
  Crowd (service W) Shared (Circumstances W) (Except Failure (Versioned α))

/-- The program of a call, outside any transaction. -/
def UpdateCall.program (u : UpdateCall W α) (id : String) :
    Program (service W) (Except Failure (Versioned α)) :=
  (EntityStore.update u.runner id u.changes u.expected : Action W _) none

/-- Any number of updates of one row that is there, on one database, by runners that may differ. -/
structure Race (W : Service) (α : Type) [Entity α] where
  home : Nat → Nat
  rows : Nat → Rows
  database : Nat
  id : String
  first : Row
  calls : Nat → Option (UpdateCall W α)
  present : (rows database).get? (Entity.table α, id) = some first
  discreet : ∀ i u, calls i = some u → Discreet u.runner
  onDatabase : ∀ i u, calls i = some u → home u.runner.store = database

/-- The programs that committed a transaction, in the order of their commits. -/
def committers (home : Nat → Nat) (log : List (Step (service W) (Circumstances W))) : List Nat :=
  (log.filterMap fun e => (e.deed.commit? home).map fun _ => e.who).reverse

theorem committers_cons (home : Nat → Nat) (who : Nat) (o : Circumstances W) (x : Deed (service W))
    (log : List (Step (service W) (Circumstances W))) :
    committers home (⟨who, o, x⟩ :: log) = committers home log ++
      ((x.commit? home).map fun _ => who).toList := by
  cases hx : x.commit? home <;> simp [committers, hx]

namespace Race

variable (G : Race W α)

/-- The key of the row. -/
def key : RowKey := (Entity.table α, G.id)

/-- The patch of a call, if its changes make one. -/
def patch? (i : Nat) : Option Fields := (G.calls i).bind fun u => (Entity.patch u.changes).toOption

/-- The row after the patches of some calls. -/
def patched (order : List Nat) : Row := (order.filterMap G.patch?).foldl Row.apply G.first

theorem patched_concat {G : Race W α} {order : List Nat} {i : Nat} {patch : Fields}
    (h : G.patch? i = some patch) :
    G.patched (order ++ [i]) = (G.patched order).apply patch := by
  simp [patched, h]

/-- The crowd of the calls after a schedule. -/
def after (interval : Nat) (ms : List (Move (Circumstances W))) : UpdateCrowd W α :=
  (Crowd.start (.opening G.rows interval) fun i => (G.calls i).map fun u =>
    u.program G.id).play (setting G.home) ms

variable (c : UpdateCrowd W α)

/-- The order of the commits so far. -/
abbrev order : List Nat := committers G.home c.log

/-- The database of the row. -/
abbrev db : Database := c.state.databases G.database

/-- Its events. -/
abbrev history : List Event := events G.home G.database (deedsOf c.log)

/-- A call has begun a transaction. -/
def Owns (i n : Nat) : Prop := ∃ e ∈ c.log, e.who = i ∧ e.deed.begun? G.home = some (G.database, n)

/-- A transaction has tried a patch, and holds a row that a commit will make the next one. -/
structure Holds (patch? : Option Fields) (expected : Option UInt64) (n : Nat)
    (row : Row) : Prop where
  wrote : ∃ patch, patch? = some patch ∧ writes n G.key (G.history c) = [.patched patch]
  buffered : ∀ t, (G.db c).opened.get? n = some t → t.writes.get? G.key = some row
  checked : ∀ e, expected = some e → row.effectiveVersion = e + 1

/-- What is true of the database when a call is at a stage. -/
def Tied (i : Nat) (patch? : Option Fields) (expected : Option UInt64) : Stage → Prop
  | .idle => i ∉ G.order c
  | .begun n => i ∉ G.order c ∧ G.Owns c i n ∧ writes n G.key (G.history c) = [] ∧
      ∀ t, (G.db c).opened.get? n = some t → t.writes.get? G.key = none
  | .tried n affected => i ∉ G.order c ∧ G.Owns c i n ∧
      (affected ≠ 0 → ∃ row, G.Holds c patch? expected n row)
  | .seen n affected current => i ∉ G.order c ∧ G.Owns c i n ∧
      (affected ≠ 0 → ∃ row, current = some row ∧ G.Holds c patch? expected n row)
  | .doomed n => i ∉ G.order c ∧ G.Owns c i n
  | .committed row => ∃ k, (G.order c)[k]? = some i ∧ row = G.patched ((G.order c).take (k + 1)) ∧
      ∀ e, expected = some e → row.effectiveVersion = e + 1

/-- The row is the first one with the patches of those calls that have committed, and every call is
at a stage. -/
structure Booked : Prop where
  recorded : Recorded G.home G.rows c
  once : (G.order c).Nodup
  patches : ∀ i ∈ G.order c, G.patch? i ≠ none
  row : (G.db c).rows.get? G.key = some (G.patched (G.order c))
  calls : ∀ i p, c.tasks i = some p → ∃ u m, G.calls i = some u ∧
    p.Obeys (Follows u.runner.store G.key (G.patch? i) u.expected) Settles m ∧
    G.Tied c i (G.patch? i) u.expected m

variable {G c} {c' : UpdateCrowd W α} {i n : Nat} {patch? : Option Fields}
variable {expected : Option UInt64}

theorem Owns.mono (h : G.Owns c i n) (hlog : c.log ⊆ c'.log) : G.Owns c' i n := by
  obtain ⟨e, he, hwho, hbegun⟩ := h
  exact ⟨e, hlog he, hwho, hbegun⟩

/-- What is true of the database when a call is at a stage stays true while others go on, and leave
its transaction alone. -/
theorem Tied.keep {m : Stage} (h : G.Tied c i patch? expected m) {extra : List Nat}
    (horder : G.order c' = G.order c ++ extra) (hextra : i ∉ extra) (hlog : c.log ⊆ c'.log)
    (hsame : ∀ n, G.Owns c i n → (G.db c').opened.get? n = (G.db c).opened.get? n ∧
      writes n G.key (G.history c') = writes n G.key (G.history c)) :
    G.Tied c' i patch? expected m := by
  have hout : i ∉ G.order c → i ∉ G.order c' := by
    intro hi
    rw [horder, List.mem_append]
    exact fun h => h.elim hi hextra
  have hholds : ∀ n row, G.Owns c i n → G.Holds c patch? expected n row →
      G.Holds c' patch? expected n row := by
    intro n row hn hh
    obtain ⟨hopened, hwrites⟩ := hsame n hn
    exact ⟨by rw [hwrites]; exact hh.wrote, by rw [hopened]; exact hh.buffered, hh.checked⟩
  cases m with
  | idle => exact hout h
  | begun n =>
    obtain ⟨hi, hn, hwrites, hbuffer⟩ := h
    obtain ⟨hopened', hwrites'⟩ := hsame n hn
    exact ⟨hout hi, hn.mono hlog, by rw [hwrites', hwrites], by rw [hopened']; exact hbuffer⟩
  | tried n affected =>
    obtain ⟨hi, hn, hrow⟩ := h
    refine ⟨hout hi, hn.mono hlog, fun ha => ?_⟩
    obtain ⟨row, hh⟩ := hrow ha
    exact ⟨row, hholds n row hn hh⟩
  | seen n affected current =>
    obtain ⟨hi, hn, hrow⟩ := h
    refine ⟨hout hi, hn.mono hlog, fun ha => ?_⟩
    obtain ⟨row, hcurrent, hh⟩ := hrow ha
    exact ⟨row, hcurrent, hholds n row hn hh⟩
  | doomed n => exact ⟨hout h.1, h.2.mono hlog⟩
  | committed row =>
    obtain ⟨k, hk, hrow, hchecked⟩ := h
    have hlt : k < (G.order c).length := (List.getElem?_eq_some_iff.1 hk).1
    refine ⟨k, ?_, ?_, hchecked⟩
    · rw [horder, List.getElem?_append_left hlt, hk]
    · rw [horder, List.take_append_of_le_length hlt, hrow]

/-! ### Steps that leave a transaction alone -/

section Advance

variable {j : Nat} {o : Circumstances W} {p p' : Program (service W) (Except Failure (Versioned α))}
variable {x : Deed (service W)} {s' : Shared} {m m' : Stage}

theorem order_advance (x : Deed (service W)) :
    G.order (c.advance j o x p' s') = G.order c ++ ((x.commit? G.home).map fun _ => j).toList :=
  committers_cons G.home j o x c.log

/-- A step that is not a request to a transaction leaves it, and the writes in it, as they are. -/
theorem untouched (hc : Recorded G.home G.rows c)
    (hn : p.next? (setting G.home) o c.state = some (x, p', s')) (howns : G.Owns c i n)
    (htx : x.tx? G.home ≠ some (G.database, n)) :
    (G.db (c.advance j o x p' s')).opened.get? n = (G.db c).opened.get? n ∧
      writes n G.key (G.history (c.advance j o x p' s')) = writes n G.key (G.history c) := by
  have hhistory : G.history (c.advance j o x p' s') =
      events G.home G.database (x :: deedsOf c.log) := rfl
  rw [hhistory]
  rcases database_of_next? hn G.database with ⟨hx, hs'⟩ | ⟨r, hx, hs'⟩
  · rw [events_cons_of_none hx]
    exact ⟨congrArg (fun db : Database => db.opened.get? n) hs', rfl⟩
  · rw [events_cons_of_some hx]
    have hrequest : r.tx? ≠ some n := fun h => htx (Deed.tx?_of_event? hx h)
    have hnew : Event.begun? ⟨r, ((c.state.databases G.database).step r).1⟩ ≠ some n := by
      intro h
      -- a number that was given out before is not given out again
      have hbegun := Deed.begun?_of_event? hx h
      have honce : (begun G.home (c.advance j o x p' s').log).Nodup := (hc.advance hn).begun_nodup
      have hcons : begun G.home (c.advance j o x p' s').log = (G.database, n) ::
          begun G.home c.log :=
        List.filterMap_cons_some hbegun
      obtain ⟨e, he, -, hold⟩ := howns
      rw [hcons] at honce
      exact (List.nodup_cons.1 honce).1 (mem_begun.2 ⟨e, he, hold⟩)
    have hlife := Database.life_step (c.state.databases G.database) r
    rw [← hs'] at hlife
    exact ⟨hlife.opened_of_ne hnew hrequest, Database.writes_cons_of_ne hrequest _⟩

/-- A step that commits nothing leaves the row as it is. -/
theorem row_of_not_commit (hn : p.next? (setting G.home) o c.state = some (x, p', s'))
    (hx : x.commit? G.home = none) :
    (G.db (c.advance j o x p' s')).rows.get? G.key = (G.db c).rows.get? G.key := by
  show (s'.databases G.database).rows.get? G.key = _
  rcases database_of_next? hn G.database with ⟨-, hs'⟩ | ⟨r, hevent, hs'⟩
  · rw [hs']
  · have hnone : Event.committed? ⟨r, ((c.state.databases G.database).step r).1⟩ = none := by
      cases h : Event.committed? ⟨r, ((c.state.databases G.database).step r).1⟩ with
      | none => rfl
      | some n => simp [Deed.commit?_of_event? hevent h] at hx
    rw [hs', (Database.did_step _ r).rows_of_not_committed hnone]

/-- The transaction that a call is in is its own. -/
theorem Tied.owns (h : G.Tied c i patch? expected m) (hm : m.tx? = some n) : G.Owns c i n := by
  cases m with
  | begun k =>
    cases hm
    exact h.2.1
  | tried k affected =>
    cases hm
    exact h.2.1
  | seen k affected current =>
    cases hm
    exact h.2.1
  | doomed k =>
    cases hm
    exact h.2
  | _ => cases hm

/-- A call that has not committed before its step is not among those that have, unless the step is a
commit. -/
theorem not_mem_order (hi : j ∉ G.order c) (hx : x.commit? G.home = none) :
    j ∉ G.order (c.advance j o x p' s') := by
  rw [order_advance, hx]
  simpa using hi

theorem owns_advance (h : G.Owns c i n) : G.Owns (c.advance j o x p' s') i n :=
  h.mono (List.subset_cons_self _ _)

/-! ### The steps of one call -/

variable {store : Nat} {r : Request}

/-- A request to the database of the row, its answer, and what it leaves behind. -/
theorem step_advance {a : Except StoreError (TransactionalStore.Result r)}
    (hstore : G.home store = G.database)
    (hn : p.next? (setting G.home) o c.state = some (.call (.database store r) a, p', s')) :
    a = ((G.db c).step r).1 ∧
      G.db (c.advance j o (.call (.database store r) a) p' s') = ((G.db c).step r).2 ∧
      G.history (c.advance j o (.call (.database store r) a) p' s') = ⟨r, a⟩ :: G.history c := by
  obtain ⟨ha, hdb⟩ := next?_database hn
  rw [hstore] at ha hdb
  have hevent : Deed.event? G.home G.database (.call (S := service W) (.database store r) a) =
      some ⟨r, a⟩ :=
    if_pos hstore
  exact ⟨ha.symm, hdb, events_cons_of_some hevent _⟩

/-- Work that is not refused is done in the open transaction. -/
theorem served_advance {key : RowKey} {v : TransactionalStore.Result r}
    (hstore : G.home store = G.database) (hr : r.works? = some (n, key))
    (hn : p.next? (setting G.home) o c.state = some (.call (.database store r) (.ok v), p', s')) :
    ∃ t, (G.db c).opened.get? n = some t ∧ .ok v = (t.serve (G.db c).rows r).1 ∧
      (G.db (c.advance j o (.call (.database store r) (.ok v)) p' s')).opened.get? n =
        some (t.serve (G.db c).rows r).2 := by
  obtain ⟨ha, hdb, -⟩ := step_advance (j := j) hstore hn
  cases ht : (G.db c).opened.get? n with
  | none =>
    rw [Database.step_of_not_open (Request.tx?_of_works hr) ht] at ha
    cases ha
  | some t =>
    rw [Database.step_of_works hr ht] at ha hdb
    refine ⟨t, rfl, ha, ?_⟩
    rw [hdb, Database.withOpen, Table.get?_insert, if_pos rfl]

theorem tied_begun (hc : Recorded G.home G.rows c) (hstore : G.home store = G.database)
    (hj : j ∉ G.order c) {context : TransactionContext}
    (hn : p.next? (setting G.home) o c.state =
      some (.call (.database store (.begin context)) (.ok n), p', s')) :
    G.Tied (c.advance j o (.call (.database store (.begin context)) (.ok n)) p' s')
      j patch? expected (.begun n) := by
  have hinv := hc.invariant G.database
  obtain ⟨ha, hdb, hhistory⟩ := step_advance (j := j) hstore hn
  have hnumber : n = (G.db c).begun := Except.ok.inj ha
  refine ⟨not_mem_order hj rfl, ⟨_, List.mem_cons_self, rfl, ?_⟩, ?_, fun t ht => ?_⟩
  · rw [← hstore]
    rfl
  · rw [hhistory, History.writes_cons_of_none rfl]
    exact hinv.silent n G.key (Nat.le_of_eq hnumber.symm)
  · -- the transaction is a new one
    rw [hdb, hnumber] at ht
    simp only [Database.step, Database.begin, Table.get?_insert, if_pos, Option.some.injEq] at ht
    subst ht
    rfl

theorem tied_tried (hstore : G.home store = G.database) (h : G.Tied c j patch? expected (.begun n))
    {patch : Fields} (hpatch : patch? = some patch) {affected : Nat}
    (hn : p.next? (setting G.home) o c.state =
      some (.call (.database store (.update n G.key.1 G.key.2 patch expected))
        (.ok affected), p', s')) :
    G.Tied
      (c.advance j o
        (.call (.database store (.update n G.key.1 G.key.2 patch expected)) (.ok affected)) p' s')
      j patch? expected (.tried n affected) := by
  obtain ⟨hj, howns, hwrites, hbuffer⟩ := h
  refine ⟨not_mem_order hj rfl, owns_advance howns, fun haffected => ?_⟩
  obtain ⟨-, -, hhistory⟩ := step_advance (j := j) hstore hn
  obtain ⟨t, ht, ha, hopened⟩ := served_advance (j := j) hstore rfl hn
  have hcount : affected = (t.update (G.db c).rows G.key patch expected).1 := Except.ok.inj ha
  obtain ⟨row, hread, hexpected, hnew⟩ := OpenTransaction.update_affected (hcount ▸ haffected)
  refine ⟨row.apply patch, ⟨patch, hpatch, ?_⟩, fun t' ht' => ?_, fun e he => ?_⟩
  · have hwrite : Event.write? n G.key ⟨.update n G.key.1 G.key.2 patch expected, .ok affected⟩ =
        some (.patched patch) := if_pos ⟨rfl, rfl, haffected⟩
    rw [hhistory, writes, hwrites, hwrite]
    rfl
  · rw [hopened, Option.some.injEq] at ht'
    rw [← ht']
    exact hnew
  · rw [Row.effectiveVersion_apply, hexpected e he]

theorem tied_seen (hstore : G.home store = G.database) {affected : Nat} {current : Option Row}
    (h : G.Tied c j patch? expected (.tried n affected))
    (hn : p.next? (setting G.home) o c.state =
      some (.call (.database store (.fetch n G.key.1 G.key.2)) (.ok current), p', s')) :
    G.Tied (c.advance j o (.call (.database store (.fetch n G.key.1 G.key.2)) (.ok current)) p' s')
      j patch? expected (.seen n affected current) := by
  obtain ⟨hj, howns, hrow⟩ := h
  refine ⟨not_mem_order hj rfl, owns_advance howns, fun haffected => ?_⟩
  obtain ⟨row, hwrote, hbuffered, hchecked⟩ := hrow haffected
  obtain ⟨-, -, hhistory⟩ := step_advance (j := j) hstore hn
  obtain ⟨t, ht, ha, hopened⟩ := served_advance (j := j) hstore rfl hn
  have hread : current = (t.read (G.db c).rows G.key).1 := Except.ok.inj ha
  refine ⟨row, ?_, ?_, fun t' ht' => ?_, hchecked⟩
  · rw [hread, OpenTransaction.fst_read, hbuffered t ht]
    rfl
  · rw [hhistory, History.writes_cons_of_none rfl]
    exact hwrote
  · rw [hopened, Option.some.injEq] at ht'
    rw [← ht']
    show (t.read (G.db c).rows G.key).2.writes.get? G.key = some row
    rw [OpenTransaction.writes_read, hbuffered t ht]

/-- The commit of a patch makes the row that the call has read, and it is the next one. -/
theorem commit_patched (hc : G.Booked c) (hstore : G.home store = G.database) {affected : Nat}
    {row : Row} (h : G.Tied c j (G.patch? j) expected (.seen n affected (some row)))
    (haffected : affected ≠ 0)
    (hn : p.next? (setting G.home) o c.state =
      some (.call (.database store (.commit n)) (.ok ()), p', s')) :
    (G.db (c.advance j o (.call (.database store (.commit n)) (.ok ())) p' s')).rows.get? G.key =
      some row ∧
      row = G.patched (G.order c ++ [j]) := by
  obtain ⟨-, -, hrow⟩ := h
  obtain ⟨row', hrow', ⟨patch, hpatch, hwrites⟩, hbuffered, -⟩ := hrow haffected
  cases hrow'
  obtain ⟨ha, hdb, hhistory⟩ := step_advance (j := j) hstore hn
  have hinv := hc.recorded.invariant G.database
  -- on the one hand the row is what the transaction holds
  have hnew : (((G.db c).step (.commit n)).2).rows.get? G.key = some row := by
    cases ht : (G.db c).opened.get? n with
    | none =>
      rw [Database.step_of_not_open rfl ht] at ha
      cases ha
    | some t =>
      simp only [Database.step, ht] at ha ⊢
      by_cases hcurrent : t.isCurrent (G.db c).rows = true
      · rw [Database.commit_of_isCurrent _ n hcurrent]
        show (t.writeTo (G.db c).rows).get? G.key = some row
        rw [OpenTransaction.get?_writeTo, hbuffered t ht]
        rfl
      · rw [Database.commit_of_not_isCurrent _ n hcurrent] at ha
        cases ha
  -- on the other hand it is the row committed before with the patch
  have hchange : RowChange [.patched patch] ((G.db c).rows.get? G.key)
      ((((G.db c).step (.commit n)).2).rows.get? G.key) := by
    rw [← hwrites]
    refine (Database.did_step _ (.commit n)).rowChange ?_ fun t ht => hinv.tracks n t G.key ht
    rw [← ha]
    rfl
  refine ⟨by rw [hdb]; exact hnew, ?_⟩
  rw [hnew, hc.row] at hchange
  rcases hchange with ⟨hnil, -⟩ | ⟨start, row', -, ⟨hstart, -⟩ | ⟨hnone, -⟩, hrow', hfold, -⟩
  · cases hnil
  · cases hstart
    cases hrow'
    rw [hfold, patched_concat hpatch]
    rfl
  · cases hnone

/-- One step of a call. -/
theorem Tied.step (hc : G.Booked c) (hstore : G.home store = G.database)
    (h : G.Tied c j (G.patch? j) expected m) (hf : Follows store G.key (G.patch? j) expected m x m')
    (hn : p.next? (setting G.home) o c.state = some (x, p', s')) :
    G.Tied (c.advance j o x p' s') j (G.patch? j) expected m' := by
  cases hf with
  | aside m x haside =>
    refine h.keep ?_ List.not_mem_nil (List.subset_cons_self _ _) fun n howns => ?_
    · rw [order_advance, haside.commit?_eq_none]
      rfl
    · refine untouched hc.recorded hn howns ?_
      rw [haside.tx?_eq_none]
      exact Option.some_ne_none _ ∘ Eq.symm
  | begun context n => exact tied_begun hc.recorded hstore h hn
  | refused context e => exact not_mem_order h rfl
  | tried n affected patch hpatch => exact tied_tried hstore h hpatch hn
  | untried n patch e => exact ⟨not_mem_order h.1 rfl, owns_advance h.2.1⟩
  | seen n affected current => exact tied_seen hstore h hn
  | unseen n affected e => exact ⟨not_mem_order h.1 rfl, owns_advance h.2.1⟩
  | committed n affected row haffected =>
    obtain ⟨-, hrow⟩ := commit_patched hc hstore h haffected hn
    have horder : G.order (c.advance j o (.call (.database store (.commit n)) (.ok ())) p' s') =
        G.order c ++ [j] :=
      order_advance _
    obtain ⟨row', hrow', hholds⟩ := h.2.2 haffected
    cases hrow'
    refine ⟨(G.order c).length, ?_, ?_, hholds.checked⟩
    · rw [horder]
      simp
    · rw [horder, List.take_of_length_le (by simp)]
      exact hrow
  | failed n affected row e => exact not_mem_order h.1 rfl
  | rolledBack m n hm a =>
    have hj : j ∉ G.order c := by
      cases m with
      | begun k => exact h.1
      | tried k affected => exact h.1
      | seen k affected current => exact h.1
      | doomed k => exact h.1
      | _ => cases hm
    exact not_mem_order hj rfl

end Advance

/-! ### Every schedule -/

/-- A transaction is of one call only. -/
theorem Owns.unique (hc : Recorded G.home G.rows c) {i j : Nat} (hi : G.Owns c i n)
    (hj : G.Owns c j n) :
    i = j := by
  obtain ⟨e, he, rfl, hbegun⟩ := hi
  obtain ⟨e', he', rfl, hbegun'⟩ := hj
  rw [eq_of_begun hc.begun_nodup he he' hbegun hbegun']

theorem Booked.forget (hc : G.Booked c) (i : Nat) : G.Booked (c.forget i) where
  recorded := hc.recorded
  once := hc.once
  patches := hc.patches
  row := hc.row
  calls j p hp := by
    obtain ⟨u, m, hu, hobeys, htied⟩ := hc.calls j p (c.tasks_forget i j hp)
    exact ⟨u, m, hu, hobeys,
      htied.keep (List.append_nil _).symm List.not_mem_nil (List.Subset.refl _)
      fun n _ => ⟨rfl, rfl⟩⟩

theorem Booked.advance (hc : G.Booked c) {j : Nat} {o : Circumstances W}
    {p p' : Program (service W) (Except Failure (Versioned α))} {x : Deed (service W)} {s' : Shared}
    (ht : c.tasks j = some p) (hn : p.next? (setting G.home) o c.state = some (x, p', s')) :
    G.Booked (c.advance j o x p' s') := by
  obtain ⟨u, m, hu, hobeys, htied⟩ := hc.calls j p ht
  obtain ⟨m', hf, hobeys'⟩ := hobeys.next? hn
  have hstore := G.onDatabase j u hu
  have hcalls : ∀ i q, (c.advance j o x p' s').tasks i = some q → ∃ u m, G.calls i = some u ∧
      q.Obeys (Follows u.runner.store G.key (G.patch? i) u.expected) Settles m ∧
      G.Tied (c.advance j o x p' s') i (G.patch? i) u.expected m := by
    intro i q hq
    rcases Crowd.tasks_advance_cases hq with ⟨rfl, rfl⟩ | ⟨hi, hq⟩
    · exact ⟨u, m', hu, hobeys', htied.step hc hstore hf hn⟩
    · obtain ⟨v, k, hv, hobeysi, htiedi⟩ := hc.calls i q hq
      refine ⟨v, k, hv, hobeysi,
        htiedi.keep (order_advance x) ?_ (List.subset_cons_self _ _) fun n howns => ?_⟩
      · cases x.commit? G.home with
        | none => exact List.not_mem_nil
        | some t => simpa using hi
      · refine untouched hc.recorded hn howns fun htx => ?_
        obtain ⟨n', hm, hn'⟩ := hf.tx?_cases htx
        rw [hstore, Prod.mk.injEq] at hn'
        exact hi (howns.unique hc.recorded (htied.owns (hn'.2 ▸ hm)))
  cases hx : x.commit? G.home with
  | none =>
    have horder : G.order (c.advance j o x p' s') = G.order c := by
      rw [order_advance, hx]
      exact List.append_nil _
    exact {
      recorded := hc.recorded.advance hn
      once := horder ▸ hc.once
      patches := horder ▸ hc.patches
      row := by rw [row_of_not_commit hn hx, horder, hc.row]
      calls := hcalls }
  | some t =>
    obtain ⟨n, affected, row, haffected, rfl, rfl⟩ := hf.of_commit? hx
    have horder :
        G.order (c.advance j o (.call (.database u.runner.store (.commit n)) (.ok ())) p' s') =
        G.order c ++ [j] := order_advance _
    obtain ⟨hrow, hpatched⟩ := commit_patched hc hstore htied haffected hn
    obtain ⟨row', -, hholds⟩ := htied.2.2 haffected
    obtain ⟨patch, hpatch, -⟩ := hholds.wrote
    refine ⟨hc.recorded.advance hn, ?_, ?_, ?_, hcalls⟩
    · rw [horder, List.nodup_append]
      refine ⟨hc.once, List.nodup_cons.2 ⟨List.not_mem_nil, List.nodup_nil⟩, fun i hi k hk => ?_⟩
      rw [List.mem_singleton.1 hk]
      exact fun h => htied.1 (h ▸ hi)
    · rw [horder]
      intro i hi
      rcases List.mem_append.1 hi with hi | hi
      · exact hc.patches i hi
      · rw [List.mem_singleton.1 hi, hpatch]
        exact Option.some_ne_none patch
    · rw [hrow, horder, hpatched]

theorem booked_after (interval : Nat) (ms : List (Move (Circumstances W))) :
    G.Booked (G.after interval ms) := by
  refine Crowd.play_invariant (I := G.Booked) (fun c j o p x p' s' hc ht hn => hc.advance ht hn)
    (fun c i hc => hc.forget i) ?_ ms
  refine ⟨fun _ => ⟨[], rfl⟩, List.nodup_nil, fun i hi => absurd hi List.not_mem_nil, G.present,
    fun i p hp => ?_⟩
  obtain ⟨u, hu, rfl⟩ := Option.map_eq_some_iff.1 hp
  have hpatch : G.patch? i = (Entity.patch u.changes).toOption := by rw [patch?, hu]; rfl
  refine ⟨u, .idle, hu, ?_, List.not_mem_nil⟩
  rw [hpatch]
  exact EntityStore.update_obeys (G.discreet i u hu) G.id u.changes u.expected

theorem effectiveVersion_patched {order : List Nat} (h : ∀ i ∈ order, G.patch? i ≠ none) :
    (G.patched order).effectiveVersion = G.first.effectiveVersion + .ofNat order.length := by
  have hlength : (order.filterMap G.patch?).length = order.length := by
    induction order with
    | nil => rfl
    | cons i order ih =>
      obtain ⟨hi, horder⟩ := List.forall_mem_cons.1 h
      obtain ⟨patch, hpatch⟩ := Option.ne_none_iff_exists'.1 hi
      rw [List.filterMap_cons_some hpatch, List.length_cons, ih horder, List.length_cons]
  rw [patched, Database.effectiveVersion_foldl_apply, hlength]

/-- The version of the row after so many commits. -/
theorem Booked.effectiveVersion_take (hc : G.Booked c) {n : Nat} (hn : n ≤ (G.order c).length) :
    (G.patched ((G.order c).take n)).effectiveVersion = G.first.effectiveVersion + .ofNat n := by
  rw [effectiveVersion_patched fun i hi => hc.patches i (List.mem_of_mem_take hi), List.length_take,
    Nat.min_eq_left hn]

/-- A call that has returned an entity has committed, and returns the row of its commit. -/
theorem Booked.of_ok (hc : G.Booked c) {i : Nat} {v : Versioned α}
    (hv : c.tasks i = some (.done (.ok v))) :
    ∃ n u, (G.order c)[n]? = some i ∧ G.calls i = some u ∧
      Entity.decode (G.patched ((G.order c).take (n + 1))) = .ok v ∧
      v.version = G.first.effectiveVersion + .ofNat (n + 1) ∧
      ∀ e, u.expected = some e → v.version = e + 1 := by
  obtain ⟨u, m, hu, hsettles, htied⟩ := hc.calls i _ hv
  cases m with
  | committed row =>
    obtain ⟨n, hn, rfl, hexpected⟩ := htied
    have hdecode : Entity.decode (G.patched ((G.order c).take (n + 1))) = .ok v := hsettles
    have hlt : n < (G.order c).length := (List.getElem?_eq_some_iff.1 hn).1
    have hsame := EntityStore.version_of_decode hdecode
    refine ⟨n, u, hn, hu, hdecode, ?_, fun e he => ?_⟩
    · rw [hsame, hc.effectiveVersion_take hlt]
    · rw [hsame]
      exact hexpected e he
  | _ => exact hsettles.elim

/-- A call that has failed has not committed. -/
theorem Booked.of_error (hc : G.Booked c) {i : Nat} {f : Failure}
    (hf : c.tasks i = some (.done (.error f))) :
    i ∉ G.order c := by
  obtain ⟨u, m, hu, hsettles, htied⟩ := hc.calls i _ hf
  cases m with
  | idle => exact htied
  | _ => exact hsettles.elim

/-- **Versions count updates.** Take any number of updates of one row at once, with or without
expected versions, and any schedule of their steps. The row is the first one with the patches of
those calls that have committed, in the order of their commits, each call once, and its version has
grown by their number. A call that has returned an entity has committed: it is the entity of the row
that its commit made, at the version of that row, which is the expected one and one more. A call
that has failed has not committed. So when all calls are over, those that have committed are those
that have returned an entity. Versions are added in 64 bits; unless the largest is passed, that is
to count. -/
theorem versions_count_updates (G : Race W α) (interval : Nat)
    (ms : List (Move (Circumstances W))) :
    let c := G.after interval ms
    let order := committers G.home c.log
    order.Nodup ∧
    (c.state.databases G.database).get? (Entity.table α) G.id = some (G.patched order) ∧
    (∀ n ≤ order.length,
      (G.patched (order.take n)).effectiveVersion = G.first.effectiveVersion + .ofNat n) ∧
    (∀ i v, c.tasks i = some (.done (.ok v)) → ∃ n u, order[n]? = some i ∧ G.calls i = some u ∧
      Entity.decode (G.patched (order.take (n + 1))) = .ok v ∧
      v.version = G.first.effectiveVersion + .ofNat (n + 1) ∧
      ∀ e, u.expected = some e → v.version = e + 1) ∧
    (∀ i f, c.tasks i = some (.done (.error f)) → i ∉ order) ∧
    ((∀ i u, G.calls i = some u → ∃ r, c.tasks i = some (.done r)) →
      ∀ i, i ∈ order ↔ ∃ v, c.tasks i = some (.done (.ok v))) ∧
    (G.first.effectiveVersion.toNat + order.length < UInt64.size →
      (∀ n ≤ order.length, (G.patched (order.take n)).effectiveVersion.toNat =
        G.first.effectiveVersion.toNat + n) ∧
      ∀ i v, c.tasks i = some (.done (.ok v)) → ∃ n u, order[n]? = some i ∧ G.calls i = some u ∧
        v.version.toNat = G.first.effectiveVersion.toNat + n + 1 ∧
        ∀ e, u.expected = some e → v.version.toNat = e.toNat + 1) := by
  intro c order
  have hc : G.Booked c := booked_after interval ms
  refine ⟨hc.once, hc.row, fun n hn => hc.effectiveVersion_take hn, fun i v hv => hc.of_ok hv,
    fun i f hf => hc.of_error hf, fun hall i => ⟨fun hi => ?_, fun hv => ?_⟩, fun hbound =>
      ⟨fun n hn => ?_, fun i v hv => ?_⟩⟩
  · obtain ⟨patch, hpatch⟩ := Option.ne_none_iff_exists'.1 (hc.patches i hi)
    obtain ⟨u, hu, -⟩ := Option.bind_eq_some_iff.1 hpatch
    obtain ⟨r, hr⟩ := hall i u hu
    cases r with
    | error f => exact absurd hi (hc.of_error hr)
    | ok v => exact ⟨v, hr⟩
  · obtain ⟨v, hv⟩ := hv
    obtain ⟨n, u, hn, -⟩ := hc.of_ok hv
    exact List.mem_of_getElem? hn
  · rw [hc.effectiveVersion_take hn, toNat_add_ofNat (by omega)]
  · obtain ⟨n, u, hn, hu, -, hversion, hexpected⟩ := hc.of_ok hv
    have hlt : n < order.length := (List.getElem?_eq_some_iff.1 hn).1
    have hexact : v.version.toNat = G.first.effectiveVersion.toNat + (n + 1) := by
      rw [hversion, toNat_add_ofNat (by omega)]
    exact ⟨n, u, hn, hu, hexact, fun e he => toNat_of_eq_add_one (hexpected e he) (by omega)⟩

end Race

/-! ### Three writers of one room -/

/-- A row from before versions were kept. -/
def legacyRoom : Row :=
  ⟨"7", [("capacity", .ofNat 8), ("name", .str "dorm"), ("price_per_night_cents", .ofNat 2500),
    ("status", .str "available")], none⟩

/-- A change of the capacity alone. -/
def resize (n : UInt32) : RoomChanges := ⟨none, some n, none, none⟩

/-- Two writers who have read the first version, and one who has read none. -/
def writers : Nat → Option (UpdateCall Nothing Room)
  | 0 => some ⟨Provenance.oneStore, resize 6, some 1⟩
  | 1 => some ⟨Provenance.oneStore, resize 4, none⟩
  | 2 => some ⟨Provenance.oneStore, resize 2, some 1⟩
  | _ => none

theorem runner_of_writers {i : Nat} {u : UpdateCall Nothing Room} (h : writers i = some u) :
    u.runner = Provenance.oneStore := by
  unfold writers at h
  split at h <;> cases h <;> rfl

/-- The writers at one room. -/
def threeWriters : Race Nothing Room where
  home := id
  rows _ := Table.empty.insert (Entity.table Room, "7") legacyRoom
  database := 0
  id := "7"
  first := legacyRoom
  calls := writers
  present := by simp [Table.get?_insert]
  discreet i u h := runner_of_writers h ▸ ⟨fun _ _ => rfl, fun _ _ _ => trivial⟩
  onDatabase i u h := runner_of_writers h ▸ rfl

/-- The second writer begins first, loses its first attempt to the first writer, and commits on top
of it; the third comes too late. -/
theorem versions_count_updates_contended :
    let c := threeWriters.after 4 (atOnce [1, 1, 0, 0, 0, 0, 1, 1, 1, 1, 1, 1, 2, 2, 2, 2])
    (∃ v, c.tasks 1 = some (.done (.ok v)) ∧ v.version = 3 ∧ v.entity.capacity = 4) ∧
      (c.state.databases 0).get? (Entity.table Room) "7" = some (threeWriters.patched [0, 1]) ∧
      (threeWriters.patched [0, 1]).effectiveVersion = 3 := by
  have hrace := Race.versions_count_updates threeWriters 4
    (atOnce [1, 1, 0, 0, 0, 0, 1, 1, 1, 1, 1, 1, 2, 2, 2, 2])
  have horder : committers id (threeWriters.after 4
      (atOnce [1, 1, 0, 0, 0, 0, 1, 1, 1, 1, 1, 1, 2, 2, 2, 2])).log = [0, 1] := by decide +kernel
  have hcapacity :
      ((threeWriters.after 4
        (atOnce [1, 1, 0, 0, 0, 0, 1, 1, 1, 1, 1, 1, 2, 2, 2, 2])).tasks 1).bind
          (fun p => p.value?.map (·.entity.capacity)) = some 4 := by decide +kernel
  obtain ⟨p, hp, hvalue⟩ := Option.bind_eq_some_iff.1 hcapacity
  obtain ⟨v, hv, hfour⟩ := Option.map_eq_some_iff.1 hvalue
  rw [Program.value?_eq_some hv] at hp
  have hhome : threeWriters.home = id := rfl
  have hdatabase : threeWriters.database = 0 := rfl
  have hid : threeWriters.id = "7" := rfl
  dsimp only at hrace ⊢
  obtain ⟨-, hrow, hversions, hok, -⟩ := hrace
  obtain ⟨n, u, hn, -, -, hversion, -⟩ := hok 1 v hp
  rw [hhome, horder] at hrow hversions hn
  rw [hdatabase, hid] at hrow
  refine ⟨⟨v, hp, ?_, hfour⟩, hrow, hversions 2 (Nat.le_refl 2)⟩
  -- the second writer is the second to commit
  obtain rfl : n = 1 := by
    rcases n with _ | _ | n
    · cases hn
    · rfl
    · cases hn
  exact hversion

end GuardedWrites

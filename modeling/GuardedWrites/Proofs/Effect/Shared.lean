import GuardedWrites.Database.Database
import GuardedWrites.Proofs.Effect.Schedule
import GuardedWrites.Proofs.Idempotency.OneKey

/-!
# What the programs of one process share

Programs share databases and one store of idempotency records. What else they ask of the world, the
readings of the clock among it, is answered by circumstances that nothing is assumed of.

* `Shared.service` — the requests: to a database, to the records, for the time, and any other;
* `Shared.step`, `Shared.setting` — how they are answered.
-/

namespace GuardedWrites

/-- The databases and the records of a process. -/
structure Shared where
  databases : Nat → Database
  records : Records

namespace Shared

/-- What a program asks for. `W` is the service of everything that is neither a database, nor the
records, nor the clock. -/
inductive Request (W : Service) where
  | database (store : Nat) (r : TransactionalStore.Request)
  | records (r : RecordStore.Request)
  | now
  | other (r : W.Request)

/-- What the reply to a request holds. -/
abbrev Reply (W : Service) : Request W → Type
  | .database _ r => TransactionalStore.service.Reply r
  | .records r => RecordStore.service.Reply r
  | .now => Moment
  | .other r => W.Reply r

/-- All that a program can ask for, as one service. -/
abbrev service (W : Service) : Service := ⟨Request W, Reply W⟩

/-- What decides about one step beside the state: the time, the timer, and the answers of everything
else. -/
structure Circumstances (W : Service) where
  now : Moment
  timer : Nat
  other : (r : W.Request) → W.Reply r

variable {W : Service}

/-- Answers a request. The store of number `i` is an access to database `home i`: a database may
have several. -/
def step (home : Nat → Nat) (o : Circumstances W) : (r : Request W) → Shared → Reply W r × Shared
  | .database i r, s =>
    let x := (s.databases (home i)).step r
    (x.1, { s with databases := fun j => if j = home i then x.2 else s.databases j })
  | .records r, s =>
    let x := s.records.step o.now r
    (.ok x.1, { s with records := x.2 })
  | .now, s => (o.now, s)
  | .other r, s => (o.other r, s)

/-- How the programs of a process are answered. -/
def setting (home : Nat → Nat) : Setting (service W) Shared (Circumstances W) :=
  ⟨step home, (·.timer)⟩

/-- A request that leaves the record of one key alone. -/
def Request.Elsewhere (key : String) : Request W → Prop
  | .records r => r.key ≠ key
  | _ => True

variable (home : Nat → Nat) (o : Circumstances W) (s : Shared)

@[simp] theorem setting_records (r : RecordStore.Request) :
    (setting home).answer o (.records r) s =
      (.ok (s.records.step o.now r).1, { s with records := (s.records.step o.now r).2 }) := rfl

section Database

variable {home o s} (i : Nat) (q : TransactionalStore.Request)

theorem databases_database :
    (step home o (.database i q) s).2.databases (home i) =
      ((s.databases (home i)).step q).2 := if_pos rfl

theorem databases_database_of_ne {j : Nat} (hj : j ≠ home i) :
    (step home o (.database i q) s).2.databases j = s.databases j := if_neg hj

end Database

end Shared

open Shared

variable {W : Service}

/-- A deed that stores `r`, whatever was there. -/
def Deed.Puts (r : IdempotencyRecord) (d : Deed (service W)) : Prop :=
  ∃ ttl x, d = .call (.records (.put r ttl)) x

/-- A deed that removes the record of a key. -/
def Deed.Removes (key : String) (d : Deed (service W)) : Prop :=
  ∃ x, d = .call (.records (.remove key)) x

/-- The transaction that a deed has committed, if it is a commit that succeeded: the number of the
database, and that of the transaction there. -/
def Deed.commit? (home : Nat → Nat) : Deed (service W) → Option (Nat × Nat)
  | .call (.database i (.commit tx)) (.ok _) => some (home i, tx)
  | _ => none

/-! ### Scenes on a fresh state -/

/-- The service without requests. -/
abbrev Nothing : Service := ⟨Empty, nofun⟩

/-- Empty databases and no record. -/
abbrev Shared.fresh : Shared := ⟨fun _ => .empty, .empty 4⟩

/-- The epoch, and no timer. -/
def Shared.epoch : Circumstances Nothing := ⟨.epoch, 0, nofun⟩

/-- Steps of the given programs one after another, all at the epoch. -/
def Shared.atOnce (who : List Nat) : List (Move (Circumstances Nothing)) :=
  who.map fun i => .step i epoch

end GuardedWrites

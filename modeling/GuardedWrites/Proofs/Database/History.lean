import GuardedWrites.Database.Database

/-!
# Histories of a relational store

A `History` is a store together with all that was asked of it and how it answered, the latest first.
The requests of any number of transactions stand in it in the order in which the store met them, so
a list of requests is one interleaving of the transactions.

* `History.after` — the history of a list of requests on a store with given rows;
* `writes` — what a transaction has written to a row so far, read off the answers alone;
* `RowChange` — what a commit has to make of a row, given these writes.
-/

namespace GuardedWrites.Database

open TransactionalStore (Request Result)

/-- A request with its answer. -/
structure Event where
  request : Request
  answer : Except StoreError (Result request)

/-- A store with its log, the latest event first. -/
structure History where
  db : Database
  log : List Event

namespace History

/-- A store with rows, of which nothing was asked yet. -/
def opening (rows : Rows) : History := ⟨⟨rows, .empty, 0, 0, 0⟩, []⟩

/-- One more request. -/
def ask (s : History) (r : Request) : History := ⟨(s.db.step r).2, ⟨r, (s.db.step r).1⟩ :: s.log⟩

/-- The history of a list of requests. -/
def after (rows : Rows) (rs : List Request) : History := rs.foldl ask (opening rows)

end History

/-! ### Writes, as the answers tell them -/

/-- A write to one row. -/
inductive Write where
  | inserted (row : Row)
  | patched (patch : Fields)

/-- The row of an insertion. -/
def Write.row? : Write → Option Row
  | .inserted row => some row
  | .patched _ => none

/-- The patch of an update. -/
def Write.patch? : Write → Option Fields
  | .inserted _ => none
  | .patched patch => some patch

/-- The write that an event made in a transaction to a row: an insertion that succeeded, or an
update that affected the row. -/
def Event.write? (tx : Nat) (key : RowKey) : Event → Option Write
  | ⟨.insert n table row, .ok _⟩ => if n = tx ∧ (table, row.id) = key
      then some (.inserted row) else none
  | ⟨.update n table id patch _, .ok affected⟩ =>
    if n = tx ∧ (table, id) = key ∧ affected ≠ (0 : Nat) then some (.patched patch) else none
  | _ => none

/-- The transaction that an event committed. -/
def Event.committed? : Event → Option Nat
  | ⟨.commit tx, .ok _⟩ => some tx
  | _ => none

/-- What a transaction has written to a row, in order. -/
def writes (tx : Nat) (key : RowKey) : List Event → List Write
  | [] => []
  | e :: earlier => writes tx key earlier ++ (e.write? tx key).toList

/-- The rows that some writes inserted. -/
def insertions (ws : List Write) : List Row := ws.filterMap Write.row?

/-- The patches of some writes. -/
def patches (ws : List Write) : List Fields := ws.filterMap Write.patch?

/-- The rows that committed transactions inserted under a key, the latest first. -/
def insertedUnder (key : RowKey) : List Event → List Row
  | [] => []
  | e :: earlier =>
    (match e.committed? with
      | some tx => insertions (writes tx key earlier)
      | none => []) ++ insertedUnder key earlier

/-- What the commit of some writes makes of a row: without writes it stays, and otherwise it becomes
the row committed before, or the one inserted if there was none, with all patches applied in order.
Each of them counts, and raises the version by one, in the arithmetic of 64 bits. -/
def RowChange (ws : List Write) (old new : Option Row) : Prop :=
  (ws = [] ∧ new = old) ∨
    ∃ start row, ws ≠ [] ∧
      (old = some start ∧ insertions ws = [] ∨ old = none ∧ insertions ws = [start]) ∧
      new = some row ∧ row = (patches ws).foldl Row.apply start ∧
      row.effectiveCount = start.effectiveCount + (patches ws).length ∧
      row.effectiveVersion = start.effectiveVersion + .ofNat (patches ws).length

@[simp] theorem insertions_append (ws vs : List Write) :
    insertions (ws ++ vs) = insertions ws ++ insertions vs := List.filterMap_append

@[simp] theorem patches_append (ws vs : List Write) :
    patches (ws ++ vs) = patches ws ++ patches vs :=
  List.filterMap_append

@[simp] theorem insertions_inserted (row : Row) : insertions [.inserted row] = [row] := rfl

@[simp] theorem insertions_patched (patch : Fields) : insertions [.patched patch] = [] := rfl

@[simp] theorem patches_inserted (row : Row) : patches [.inserted row] = [] := rfl

@[simp] theorem patches_patched (patch : Fields) : patches [.patched patch] = [patch] := rfl

theorem effectiveCount_foldl_apply (ps : List Fields) (row : Row) :
    (ps.foldl Row.apply row).effectiveCount = row.effectiveCount + ps.length := by
  induction ps generalizing row with
  | nil => rfl
  | cons p ps ih =>
    rw [List.foldl_cons, ih, Row.effectiveCount_apply, List.length_cons]
    omega

theorem effectiveVersion_foldl_apply (ps : List Fields) (row : Row) :
    (ps.foldl Row.apply row).effectiveVersion = row.effectiveVersion + .ofNat ps.length := by
  rw [Row.effectiveVersion_eq, effectiveCount_foldl_apply, UInt64.ofNat_add,
    Row.effectiveVersion_eq]

end GuardedWrites.Database

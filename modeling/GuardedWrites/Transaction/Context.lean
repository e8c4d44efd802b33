import GuardedWrites.Json.Format

/-!
# What a transaction is begun with

The isolation level, the name of the operation, the attempt and the budget of attempts.
-/

namespace GuardedWrites

/-- Isolation of a transaction from others. -/
inductive IsolationLevel where
  | readCommitted
  | repeatableRead
  | serializable
deriving DecidableEq

namespace IsolationLevel

/-- The level in SQL. -/
def sql : IsolationLevel → String
  | .readCommitted => "READ COMMITTED"
  | .repeatableRead => "REPEATABLE READ"
  | .serializable => "SERIALIZABLE"

/-- The levels by name. -/
def names : List (String × IsolationLevel) :=
  [("read_committed", .readCommitted), ("repeatable_read", .repeatableRead),
    ("serializable", .serializable)]

end IsolationLevel

instance : Format IsolationLevel where
  write
    | .readCommitted => .str "read_committed"
    | .repeatableRead => .str "repeatable_read"
    | .serializable => .str "serializable"
  read := Written.choice? IsolationLevel.names

/-- Parameters of one attempt, handed to the store when it begins. -/
structure TransactionContext where
  isolation : IsolationLevel
  operation : String
  attempt : Nat
  maxAttempts : Nat
  lockRows : Bool
deriving DecidableEq

/-- Whether another attempt may follow this one. -/
def TransactionContext.hasAttemptsLeft (c : TransactionContext) : Bool := c.attempt < c.maxAttempts

end GuardedWrites

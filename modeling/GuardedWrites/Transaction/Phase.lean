/-!
# Phases of a run

A run starts, runs an attempt, and either commits, rolls back for another attempt, or rolls back for
good.
-/

namespace GuardedWrites

/-- Phase of a run. -/
inductive Phase where
  | started
  | running
  | committed
  | rolledBackRetry
  | rolledBackFatal
deriving DecidableEq

namespace Phase

/-- The phases by name. -/
def names : List (String × Phase) :=
  [("Started", .started), ("Running", .running), ("Committed", .committed),
    ("RolledBackRetry", .rolledBackRetry), ("RolledBackFatal", .rolledBackFatal)]

/-- Whether nothing can follow. -/
def isTerminal : Phase → Bool
  | .committed | .rolledBackFatal => true
  | _ => false

/-- Moves to the next phase, if it may follow this one. -/
def advance (p next : Phase) : Option Phase :=
  match p, next with
  | .started, .running => some next
  | .running, .committed => some next
  | .running, .rolledBackRetry => some next
  | .running, .rolledBackFatal => some next
  | .rolledBackRetry, .running => some next
  | _, _ => none

end Phase

end GuardedWrites

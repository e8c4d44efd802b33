import GuardedWrites.Failure
import GuardedWrites.Time.Moment

/-!
# Choosing what to forget

A bounded table asks its `EvictionPolicy` whether it is full and which key to give up. The usual
policy gives up the key that was touched longest ago.
-/

namespace GuardedWrites

/-- A key that may be given up, and when it was last touched. -/
structure Candidate where
  key : String
  lastAccess : Moment

/-- When a table is full and what it gives up. -/
structure EvictionPolicy where
  shouldEvict : Nat → Bool
  victim? : List Candidate → Option String

namespace EvictionPolicy

/-- The first of the candidates touched longest ago. -/
def oldest? : List Candidate → Option Candidate
  | [] => none
  | c :: rest => match oldest? rest with
    | none => some c
    | some d => if d.lastAccess < c.lastAccess then some d else some c

/-- Keeps at most `max` keys and gives up the one touched longest ago. -/
def leastRecent (max : Nat) : EvictionPolicy :=
  ⟨fun n => max ≤ n, fun cs => (oldest? cs).map Candidate.key⟩

/-- The usual policy, if it leaves room for a key at all. -/
def leastRecent? (max : Nat) : Except BuildFault EvictionPolicy :=
  if max = 0 then .error .zeroMaxTrackedKeys else .ok (leastRecent max)

/-- Keys that a table keeps unless it is told otherwise. -/
def defaultMaxKeys : Nat := 10000

end EvictionPolicy

end GuardedWrites

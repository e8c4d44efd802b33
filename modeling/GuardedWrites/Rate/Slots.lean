import GuardedWrites.Rate.Bucket
import GuardedWrites.Rate.Eviction
import GuardedWrites.Rate.Window
import GuardedWrites.Table

/-!
# State of many rules

`Slots` keep a window or a bucket per key, with the moment of the last request and the time after
which the state means nothing any more. A state that is older than that starts afresh. A new key
makes room first: if the table is full, everything out of date is dropped, and only if it is still
full one more key.

* `Slots.judge` — judges a request of a key;
* `Slots.status` — reads the counts of a key and changes nothing;
* `Slots.step` — the same and the clearing operations as one function on `Slots.Request`.
-/

namespace GuardedWrites

/-- The state of one rule. -/
inductive RuleState (ν : Type) where
  | window (w : Window)
  | bucket (b : Bucket ν)

/-- The state of one rule, when it was last used, and how long it means anything. -/
structure Slot (ν : Type) where
  state : RuleState ν
  lastAccess : Moment
  ttl : Span

/-- The state of rules by key, and how many keys were given up for lack of room. -/
structure Slots (ν : Type) where
  table : Table String (Slot ν)
  evictions : Nat

variable {ν : Type} [Amount ν]

/-- The state in which a rule starts. -/
def RuleState.fresh (a : Algorithm ν) (now : Moment) : RuleState ν :=
  match a with
  | .window _ => .window .empty
  | .bucket l => .bucket (.full l now)

/-- Judges a request. State of the other algorithm is replaced by a fresh one. -/
def RuleState.judge (s : RuleState ν) (a : Algorithm ν) (now : Moment) : Outcome × RuleState ν :=
  match a, s with
  | .window l, .window w => let (o, w') := w.hit l now; (o, .window w')
  | .window l, .bucket _ => let (o, w') := Window.empty.hit l now; (o, .window w')
  | .bucket l, .bucket b => let (o, b') := b.take l now; (o, .bucket b')
  | .bucket l, .window _ => let (o, b') := (Bucket.full l now).take l now; (o, .bucket b')

/-- The counts of a rule; state of the other algorithm counts as none. -/
def RuleState.status (s : RuleState ν) (a : Algorithm ν) (label : String) (now : Moment) :
    RuleStatus :=
  match a, s with
  | .window l, .window w => w.status l label now
  | .window l, .bucket _ => Window.empty.status l label now
  | .bucket l, .bucket b => b.status l label now
  | .bucket l, .window _ => (Bucket.full l now).status l label now

/-- Whether a state means nothing any more. -/
def Slot.isExpired {ν : Type} (s : Slot ν) (now : Moment) : Bool := s.ttl ≤ s.lastAccess.elapsed now

namespace Slots

/-- No state at all. -/
def empty {ν : Type} : Slots ν := ⟨.empty, 0⟩

/-- The number of keys with state. -/
def size {ν : Type} (s : Slots ν) : Nat := s.table.size

/-- The keys as candidates for eviction. -/
def candidates {ν : Type} (s : Slots ν) : List Candidate :=
  s.table.entries.map fun e => ⟨e.1, e.2.lastAccess⟩

/-- Drops every state that means nothing any more. -/
def dropExpired {ν : Type} (s : Slots ν) (now : Moment) : Slots ν :=
  { s with table := s.table.filter fun _ slot => !slot.isExpired now }

/-- Gives up one key, if the policy names one that is there. -/
def evictOne {ν : Type} (s : Slots ν) (policy : EvictionPolicy) : Slots ν :=
  match policy.victim? s.candidates with
  | some key => if s.table.has key then ⟨s.table.erase key, s.evictions + 1⟩ else s
  | none => s

/-- Makes room for `key`. A key that is there needs none. -/
def makeRoom {ν : Type} (s : Slots ν) (policy : EvictionPolicy) (key : String) (now : Moment) :
    Slots ν :=
  if s.table.has key || !policy.shouldEvict s.size then s
  else
    let live := s.dropExpired now
    if policy.shouldEvict live.size then live.evictOne policy else live

/-- The slot of a key, a fresh one if there is none or it is out of date. -/
def slotFor (s : Slots ν) (key : String) (a : Algorithm ν) (now : Moment) : Slot ν :=
  let new : Slot ν := ⟨.fresh a now, now, a.ttl⟩
  match s.table.get? key with
  | none => new
  | some slot => if slot.isExpired now then new else slot

/-- Judges a request of a key at `now`. -/
def judge (s : Slots ν) (policy : EvictionPolicy) (key : String) (a : Algorithm ν) (now : Moment) :
    Outcome × Slots ν :=
  let roomy := s.makeRoom policy key now
  let slot := roomy.slotFor key a now
  let (outcome, state) := slot.state.judge a now
  (outcome,
    { roomy with table := roomy.table.insert key ⟨state, slot.lastAccess.latest now, a.ttl⟩ })

/-- The counts of a rule under a key at `now`. -/
def status (s : Slots ν) (key : String) (rule : Rule ν) (now : Moment) : RuleStatus :=
  match s.table.get? key with
  | none => (RuleState.fresh rule.algorithm now).status rule.algorithm rule.label now
  | some slot =>
    if slot.isExpired now
    then (RuleState.fresh rule.algorithm now).status rule.algorithm rule.label now
    else slot.state.status rule.algorithm rule.label now

/-- Whether a key starts with a given text. -/
def startsWith (start key : String) : Bool := start.toList.isPrefixOf key.toList

/-- Forgets every key that starts with `start`, and says how many there were. -/
def removeStarting {ν : Type} (s : Slots ν) (start : String) : Nat × Slots ν :=
  let kept := s.table.filter fun key _ => !startsWith start key
  (s.table.size - kept.size, { s with table := kept })

/-- Forgets everything but the number of evictions. -/
def clear {ν : Type} (s : Slots ν) : Slots ν := { s with table := .empty }

/-- What can be asked of the slots. -/
inductive Request (ν : Type) where
  | judge (key : String) (algorithm : Algorithm ν) (now : Moment)
  | status (key : String) (rule : Rule ν) (now : Moment)
  | removeStarting (start : String)
  | clear

/-- The answer to a request. -/
inductive Answer where
  | outcome (o : Outcome)
  | status (s : RuleStatus)
  | removed (n : Nat)
  | cleared

/-- Answers a request. -/
def step (policy : EvictionPolicy) (s : Slots ν) : Request ν → Answer × Slots ν
  | .judge key a now => let (o, s') := s.judge policy key a now; (.outcome o, s')
  | .status key rule now => (.status (s.status key rule now), s)
  | .removeStarting start => let (n, s') := s.removeStarting start; (.removed n, s')
  | .clear => (.cleared, s.clear)

end Slots

end GuardedWrites

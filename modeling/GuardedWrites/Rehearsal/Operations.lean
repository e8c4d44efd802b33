import GuardedWrites.Entity.Room
import GuardedWrites.Idempotency.Guard

/-!
# Rehearsing guarded operations

A guard over records in process, with a clock, planned failures of the store, and records that
another caller slips in just before a claim. A `Step` is one thing that happens; while an operation
runs, further steps may happen inside it, and it may never return, in which case its call is
dropped.

* `Operations.step` — the indivisible steps on what a rehearsal keeps;
* `Step.program` — what a step does;
* `Operations.act` — plays a step to its end.
-/

namespace GuardedWrites.Rehearsal

/-- The type of the results of an operation. `picky` results are any values, except that one text
cannot be encoded. -/
inductive ResultKind where
  | value
  | nat32
  | text
  | room
  | picky

/-- The text that cannot be encoded. -/
def unencodable : String := "!unserializable"

/-- Values of a type that has a format, as JSON values. -/
def typedCodec (ρ : Type) [Format ρ] : ResultCodec Json :=
  ⟨fun v => (Format.ofJson? v : Option ρ).bind (ResultCodec.json ρ).encode,
    fun bs => ((ResultCodec.json ρ).decode bs).map Format.write⟩

/-- A natural number of 32 bits as a result. -/
structure Nat32 where
  val : Nat

instance : Format Nat32 where
  write n := .ofNat n.val
  read w := (Written.nat32? w).map Nat32.mk

/-- How results of a kind are stored. -/
def ResultKind.codec : ResultKind → ResultCodec Json
  | .value => .json Json
  | .nat32 => typedCodec Nat32
  | .text => typedCodec String
  | .room => typedCodec Room
  | .picky => ⟨fun
      | .str s => if s = unencodable then none else (ResultCodec.json Json).encode (.str s)
      | v => (ResultCodec.json Json).encode v, (ResultCodec.json Json).decode⟩

/-- A value as its type writes it; a value of another type is left alone. -/
def typedValue (ρ : Type) [Format ρ] (v : Json) : Json :=
  ((Format.ofJson? v : Option ρ).map Format.write).getD v

/-- A result of a kind as its type writes it. -/
def ResultKind.normal : ResultKind → Json → Json
  | .nat32 => typedValue Nat32
  | .text => typedValue String
  | .room => typedValue Room
  | _ => id

/-- The calls of a store of records by kind. -/
inductive CallKind where
  | get
  | put
  | putIfAbsent
  | remove
deriving DecidableEq

/-- The kind of a request. -/
def CallKind.ofRequest : RecordStore.Request → CallKind
  | .get _ => .get
  | .put _ _ => .put
  | .putIfAbsent _ _ => .putIfAbsent
  | .remove _ => .remove

/-- A plan to let some calls of a kind pass and then fail some. -/
structure FaultPlan where
  call : CallKind
  skip : Nat
  times : Nat
  error : BackendError

/-- Counts a call down in the plans for its kind, in order; the first that fails it ends the
counting. -/
def FaultPlan.count (call : CallKind) : List FaultPlan → Option BackendError × List FaultPlan
  | [] => (none, [])
  | p :: rest =>
    if p.call ≠ call then let (e, rest) := count call rest; (e, p :: rest)
    else if 0 < p.skip then
      let (e, rest) := count call rest; (e, { p with skip := p.skip - 1 } :: rest)
    else if 0 < p.times then (some p.error, { p with times := p.times - 1 } :: rest)
    else let (e, rest) := count call rest; (e, p :: rest)

mutual

/-- What came back from a step, with the number of records after it. -/
inductive StepAnswer where
  | mk (out : StepOutcome) (size : Nat)

/-- What came back. The answer of a dropped call is none; the steps inside an operation are none if
it was not started. -/
inductive StepOutcome where
  | execution (answer : Option (Except Failure (Execution Json)))
      (during : Option (List StepAnswer))
  | completed (answer : Except Failure Bool)
  | result (answer : Except Failure (Option Json))
  | cleared (answer : Except Failure Unit)
  | record (r : Option IdempotencyRecord)
  | purged (n : Nat)
  | configuration (c : IdempotencyConfig)
  | nothing

end

/-- One thing that happens in a rehearsal. -/
inductive Step where
  | execute (exclusive : Bool) (kind : ResultKind) (key : String) (result : Except Failure Json)
      (during : List Step) (hangs : Bool)
  | wasCompleted (key : String)
  | getResult (kind : ResultKind) (key : String)
  | clear (key : String)
  | rawGet (key : String)
  | rawPut (record : IdempotencyRecord) (ttl : Span)
  | purge
  | advance (d : Span)
  | setClock (moment : Moment)
  | fail (plan : FaultPlan)
  | race (record : IdempotencyRecord) (ttl : Span)
  | configuration

/-- What a rehearsal keeps: the clock, the records, planned failures and planned claims of others,
and for each operation under way the answers of the steps inside it. -/
structure Operations where
  clock : Moment
  records : Records
  faults : List FaultPlan
  races : List (IdempotencyRecord × Span)
  notes : List (List StepAnswer)

namespace Operations

/-- The indivisible steps on what a rehearsal keeps. -/
inductive Request where
  | now
  | guarded (r : RecordStore.Request)
  | raw (r : RecordStore.Request)
  | purge
  | size
  | advance (d : Span)
  | setClock (moment : Moment)
  | fail (plan : FaultPlan)
  | race (record : IdempotencyRecord) (ttl : Span)
  | opened
  | openNotes
  | note (a : StepAnswer)
  | closeNotes (depth : Nat)

/-- What the reply to a step holds. -/
abbrev Reply : Request → Type
  | .now => Moment
  | .guarded r => Except BackendError (RecordStore.Result r)
  | .raw r => RecordStore.Result r
  | .purge => Nat
  | .size => Nat
  | .opened => Nat
  | .closeNotes _ => Option (List StepAnswer)
  | _ => Unit

/-- What a rehearsal keeps, as a service. -/
abbrev service : Service := ⟨Request, Reply⟩

/-- A rehearsal in which nothing has happened. -/
def initial (clock : Moment) (purgeInterval : Nat) : Operations :=
  ⟨clock, .empty purgeInterval, [], [], []⟩

/-- Writes the records that others slip in before a claim. -/
def applyRaces (w : Operations) : RecordStore.Request → Operations
  | .putIfAbsent _ _ =>
    { w with records := w.races.foldl (fun s r => s.put w.clock r.1 r.2) w.records, races := [] }
  | _ => w

/-- A call of the guard: it may be made to fail before it reaches the records. -/
def guarded (w : Operations) (r : RecordStore.Request) :
    Except BackendError (RecordStore.Result r) × Operations :=
  let (failed, faults) := FaultPlan.count (.ofRequest r) w.faults
  let w := { w with faults := faults }
  match failed with
  | some e => (.error e, w)
  | none =>
    let w := w.applyRaces r
    let (x, records) := w.records.step w.clock r
    (.ok x, { w with records := records })

/-- The list with its last element changed. -/
def appendToLast (a : StepAnswer) : List (List StepAnswer) → List (List StepAnswer)
  | [] => []
  | [as] => [as ++ [a]]
  | as :: rest => as :: appendToLast a rest

/-- One step. -/
def step : (r : Request) → Operations → Reply r × Operations
  | .now, w => (w.clock, w)
  | .guarded r, w => w.guarded r
  | .raw r, w => let (x, records) := w.records.step w.clock r; (x, { w with records := records })
  | .purge, w => let (n, records) := w.records.purge w.clock; (n, { w with records := records })
  | .size, w => (w.records.size, w)
  | .advance d, w => ((), { w with clock := w.clock.later d })
  | .setClock t, w => ((), { w with clock := t })
  | .fail plan, w => ((), { w with faults := w.faults ++ [plan] })
  | .race record ttl, w => ((), { w with races := w.races ++ [(record, ttl)] })
  | .opened, w => (w.notes.length, w)
  | .openNotes, w => ((), { w with notes := w.notes ++ [[]] })
  | .note a, w => ((), { w with notes := appendToLast a w.notes })
  | .closeNotes depth, w => (w.notes[depth]?, { w with notes := w.notes.take depth })

/-- A call of a step. -/
def ask (r : Request) : Program service (Reply r) := Program.ask (S := service) r

/-- The guard of a rehearsal. -/
def idempotencyGuard (config : IdempotencyConfig) : IdempotencyGuard (Program service) :=
  ⟨config, fun r => ask (.guarded r), ask .now⟩

end Operations

namespace Step

open Operations

mutual

/-- What a step does. -/
def program (config : IdempotencyConfig) : Step → Program service StepAnswer
  | .execute exclusive kind key result during hangs => do
    let depth ← ask .opened
    let operation : Program service (Except Failure Json) := do
      ask .openNotes
      programs config during
      if hangs then .hang else pure (result.map kind.normal)
    let g := idempotencyGuard config
    let call := if exclusive then g.executeExclusive kind.codec key operation
      else g.execute kind.codec key operation
    let answer ← call.untilStuck
    let inside ← ask (.closeNotes depth)
    return .mk (.execution answer inside) (← ask .size)
  | .wasCompleted key => do
    return .mk (.completed (← (idempotencyGuard config).wasCompleted key)) (← ask .size)
  | .getResult kind key => do
    return .mk (.result (← (idempotencyGuard config).getResult kind.codec key)) (← ask .size)
  | .clear key => do return .mk (.cleared (← (idempotencyGuard config).clear key)) (← ask .size)
  | .rawGet key => do return .mk (.record (← ask (.raw (.get key)))) (← ask .size)
  | .rawPut record ttl => do
    ask (.raw (.put record ttl))
    return .mk .nothing (← ask .size)
  | .purge => do return .mk (.purged (← ask .purge)) (← ask .size)
  | .advance d => do
    ask (.advance d)
    return .mk .nothing (← ask .size)
  | .setClock t => do
    ask (.setClock t)
    return .mk .nothing (← ask .size)
  | .fail plan => do
    ask (.fail plan)
    return .mk .nothing (← ask .size)
  | .race record ttl => do
    ask (.race record ttl)
    return .mk .nothing (← ask .size)
  | .configuration => do return .mk (.configuration config) (← ask .size)

/-- Steps one after another, each answer noted for the operation around them. -/
def programs (config : IdempotencyConfig) : List Step → Program service Unit
  | [] => pure ()
  | s :: rest => do
    let a ← program config s
    ask (.note a)
    programs config rest

end

end Step

/-- Plays a step to its end. -/
def Operations.act (config : IdempotencyConfig) (w : Operations) (s : Step) :
    Option StepAnswer × Operations :=
  let (a, w, _) := (s.program config).run Operations.step w 0
  (a, w)

end GuardedWrites.Rehearsal

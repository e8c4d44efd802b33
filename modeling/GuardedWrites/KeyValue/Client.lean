import GuardedWrites.Idempotency.Records
import GuardedWrites.KeyValue.Command
import GuardedWrites.KeyValue.Glob
import GuardedWrites.KeyValue.RecordBytes
import GuardedWrites.Rate.Remote
import GuardedWrites.Text.Quoted

/-!
# A client of a key-value server

The client keeps rule state and idempotency records on a server, for callers in several processes.
Every command is abandoned after a timeout. Windows are sets scored by milliseconds, buckets are
hashes of a number of tokens and a moment, and records are bytes that expire.

* `Client.judge`, `Client.status`, `Client.clearStarting`, `Client.ping` — rule state;
* `Client.get`, `Client.put`, `Client.putIfAbsent`, `Client.remove` — records;
* `Client.rateStore`, `Client.recordStore` — the two as services.
-/

namespace GuardedWrites.KeyValue

/-- What goes wrong between client and server. -/
inductive Fault where
  | refused (text : String)
  | late (after : Span)
  | misshapen
  | notANumber (text : String)
  | unexpectedPong (text : String)
  | beforeEpoch

/-- The failure that a user of the store sees. -/
def Fault.toBackendError : Fault → BackendError
  | .refused text => .unavailable text
  | .late d => .timeout d
  | .misshapen => .protocol "a reply has another shape than its command asks for"
  | .notANumber text => .protocol ("expected a number, got " ++ Text.quoted text)
  | .unexpectedPong text => .protocol ("unexpected PING reply " ++ Text.quoted text)
  | .beforeEpoch => .protocol "a moment before the epoch cannot be stored"

/-- How a client names its keys, and how long it waits for a reply. -/
structure ClientConfig where
  keyPrefix : String
  commandTimeout : Span
deriving DecidableEq

/-- The usual configuration. -/
def ClientConfig.standard : ClientConfig := ⟨"booking-guard:", .ofMillis 250⟩

/-- The largest number of milliseconds that is sent. -/
def millisLimit : Nat := UInt64.size - 1

/-- The longest expiry that the server accepts. -/
def expiryLimit : Nat := Nat.pow 2 52

/-- The milliseconds of a span, as many as can be sent. -/
def spanMillis (d : Span) : Nat := min d.millis millisLimit

/-- The milliseconds of a moment after the epoch; none before it. -/
def momentMillis (t : Moment) : Nat := spanMillis t.sinceEpoch

/-- The milliseconds after which a value expires, at least one. -/
def expiryMillis (d : Span) : Nat := min (max (spanMillis d) 1) expiryLimit

/-- The moment of a score; what is no positive number is the epoch. -/
def scoreMoment (score : Float) : Moment := .ofMillis (Amount.larger score 0).toUInt64.toNat

/-- A client: its configuration, the way to the server, and a source of texts that tell apart the
requests of one millisecond. -/
structure Client (m : Type → Type) where
  config : ClientConfig
  send : service.Via m
  nonce : m String

namespace Client

variable {m : Type → Type} [Monad m] [Timed m]

/-- The key on the server. -/
def serverKey (c : Client m) (key : String) : String := c.config.keyPrefix ++ key

/-- What a reply holds, if it is no error and of the right shape. -/
def accept {α : Type} (read : Reply → Option α) (r : Reply) : Except Fault α :=
  match r.trouble? with
  | some text => .error (.refused text)
  | none =>
    match read r with
    | some a => .ok a
    | none => .error .misshapen

/-- An exchange with the server that is abandoned after the timeout. -/
def bounded {α : Type} (c : Client m) (exchange : m (Except Fault α)) : m (Except Fault α) := do
  match ← Timed.within c.config.commandTimeout exchange with
  | some r => return r
  | none => return .error (.late c.config.commandTimeout)

/-- A command and its reply. -/
def call {α : Type} (c : Client m) (command : Command) (read : Reply → Option α) :
    m (Except Fault α) :=
  c.bounded do return accept read (← c.send command)

/-- Whether an error says that the server does not know a script. -/
def isUnknownScript (r : Reply) : Bool :=
  match r.trouble? with
  | some text => Reply.errorCode text = "NOSCRIPT"
  | none => false

/-- A call of a script, which is loaded if the server does not know it. -/
def evaluate {α : Type} (c : Client m) (script : Script) (key : String) (args : List String)
    (read : Reply → Option α) : m (Except Fault α) :=
  let command := Command.evaluate script (c.serverKey key) args
  c.bounded do
    let first ← c.send command
    if isUnknownScript first then
      match accept some (← c.send (.loadScript script)) with
      | .error e => return .error e
      | .ok _ => return accept read (← c.send command)
    else return accept read first

/-! ### Rule state -/

/-- The number that a text of a reply writes. -/
def number (text : String) : Except Fault Float :=
  match Decimal.parseNumeral? text with
  | some x => .ok x
  | none => .error (.notANumber text)

/-- What the script of the window answers. -/
def windowOutcome (allowed remaining retryMillis : Int) : Outcome :=
  if allowed = 1 then .allow remaining.toNat else .deny (.ofMillis retryMillis.toNat)

/-- What the script of the bucket answers. The wait is read only if the request is denied. -/
def bucketOutcome (allowed : Int) (tokens retrySecs : String) : Except Fault Outcome := do
  let tokens ← number tokens
  if allowed = 1 then return .allow (Bucket.requests tokens)
  else return .deny (.ofSeconds (← number retrySecs))

/-- Judges a request by a window. -/
def hit (c : Client m) (key : String) (l : WindowLimit) (now : Moment) :
    m (Except Fault Outcome) := do
  let millis := toString (momentMillis now)
  let member := millis ++ "-" ++ (← c.nonce)
  let args := [millis, toString (spanMillis l.window), toString l.max, member]
  let r ← c.evaluate .slidingWindow key args (Reply.triple? Reply.int64? Reply.int64? Reply.int64?)
  return r.map fun (allowed, remaining, retry) => windowOutcome allowed remaining retry

/-- Judges a request by a bucket. -/
def takeToken (c : Client m) (key : String) (l : BucketLimit Float) (now : Moment) :
    m (Except Fault Outcome) := do
  let args := [toString (momentMillis now), toString l.capacity,
    Decimal.Style.argument.write l.refillRate, toString (expiryMillis l.fullRefill)]
  let r ← c.evaluate .tokenBucket key args (Reply.triple? Reply.int64? Reply.text? Reply.text?)
  return r.bind fun (allowed, tokens, retry) => bucketOutcome allowed tokens retry

/-- Judges a request. -/
def judge (c : Client m) (key : String) (a : Algorithm Float) (now : Moment) :
    m (Except Fault Outcome) :=
  match a with
  | .window l => c.hit key l now
  | .bucket l => c.takeToken key l now

/-- The window of a key, without the requests that are too old to count. -/
def window (c : Client m) (key : String) (l : WindowLimit) (now : Moment) :
    m (Except Fault Window) := do
  let min := "(" ++ toString (momentMillis now - spanMillis l.window)
  let r ← c.call (.rangeByScore (c.serverKey key) min) (Reply.pairs? Reply.text? Reply.float?)
  return r.map fun entries => .ofList (entries.map fun e => scoreMoment e.2)

/-- The bucket that two fields hold, if both are numbers. -/
def bucketOf (tokens ts : Option String) : Option (Bucket Float) := do
  let tokens ← Decimal.parseNumeral? (← tokens)
  let ts ← Decimal.parseNumeral? (← ts)
  return ⟨tokens, scoreMoment ts⟩

/-- The bucket of a key, a full one if there is none. -/
def bucket (c : Client m) (key : String) (l : BucketLimit Float) (now : Moment) :
    m (Except Fault (Bucket Float)) := do
  let text := Reply.optional? Reply.text?
  let r ← c.call (.hashFields (c.serverKey key) ["tokens", "ts"]) (Reply.pair? text text)
  return r.map fun (tokens, ts) => (bucketOf tokens ts).getD (.full l now)

/-- Reads the state of a rule. -/
def status (c : Client m) (key : String) (rule : Rule Float) (now : Moment) :
    m (Except Fault RuleStatus) := do
  match rule.algorithm with
  | .window l => return (← c.window key l now).map fun w => w.status l rule.label now
  | .bucket l => return (← c.bucket key l now).map fun b => b.status l rule.label now

/-- Deletes keys, if there are any, and counts those that were there. -/
def deleteAll (c : Client m) (keys : List String) : m (Except Fault Nat) :=
  if keys.isEmpty then pure (.ok 0) else c.call (.delete keys) Reply.nat64?

/-- Deletes what a scan finds from a cursor on. Cursors have 64 bits, so a scan of more steps than
there are cursors goes in circles and is no scan. -/
def deleteScanned (c : Client m) (pattern : String) : (steps : Nat) → (removed cursor : Nat) →
    m (Except Fault Nat)
  | 0, _, _ => pure (.error .misshapen)
  | steps + 1, removed, cursor => do
    match ← c.call (.scan cursor pattern) (Reply.pair? Reply.nat64? Reply.texts?) with
    | .error e => return .error e
    | .ok (next, keys) =>
      match ← c.deleteAll keys with
      | .error e => return .error e
      | .ok n =>
        if next = 0 then return .ok (removed + n)
        else c.deleteScanned pattern steps (removed + n) next

/-- Steps that a scan can take. -/
def scanLimit : Nat := UInt64.size

/-- Deletes all keys that start with a text, and counts them. -/
def clearStarting (c : Client m) (start : String) : m (Except Fault Nat) :=
  c.deleteScanned (Glob.startingWith c.config.keyPrefix start) scanLimit 0 0

/-- Asks whether the server is there. -/
def ping (c : Client m) : m (Except Fault Unit) := do
  match ← c.call .ping Reply.text? with
  | .error e => return .error e
  | .ok text => return if text = "PONG" then .ok () else .error (.unexpectedPong text)

/-! ### Records -/

/-- Reads a record. Bytes that are no record are deleted. -/
def get (c : Client m) (key : String) : m (Except Fault (Option IdempotencyRecord)) := do
  match ← c.call (.get (c.serverKey key)) (Reply.optional? Reply.bytes?) with
  | .error e => return .error e
  | .ok none => return .ok none
  | .ok (some bytes) =>
    match RecordBytes.decode? bytes with
    | some record => return .ok (some record)
    | none => return (← c.call (.delete [c.serverKey key]) some).map fun _ => none

/-- Stores a record in place of any other. -/
def put (c : Client m) (record : IdempotencyRecord) (ttl : Span) : m (Except Fault Unit) := do
  match RecordBytes.encode? record with
  | none => return .error .beforeEpoch
  | some bytes =>
    return (← c.call (.put (c.serverKey record.key) bytes (expiryMillis ttl)) some).map fun _ => ()

/-- Stores a record unless there is one under its key, and tells whether it did. -/
def putIfAbsent (c : Client m) (record : IdempotencyRecord) (ttl : Span) :
    m (Except Fault Bool) := do
  match RecordBytes.encode? record with
  | none => return .error .beforeEpoch
  | some bytes =>
    let r ← c.call (.putIfAbsent (c.serverKey record.key) bytes (expiryMillis ttl))
      (Reply.optional? Reply.text?)
    return r.map Option.isSome

/-- Removes a record. -/
def remove (c : Client m) (key : String) : m (Except Fault Unit) := do
  return (← c.call (.delete [c.serverKey key]) some).map fun _ => ()

/-! ### Services -/

/-- The client as a remote store of rule state. -/
def rateStore (c : Client m) : (RateStore.service Float).Via m
  | .judge key a now => do return (← c.judge key a now).mapError Fault.toBackendError
  | .status key rule now => do return (← c.status key rule now).mapError Fault.toBackendError
  | .clearStarting start => do return (← c.clearStarting start).mapError Fault.toBackendError
  | .ping => do return (← c.ping).mapError Fault.toBackendError

/-- The client as a store of records. -/
def recordStore (c : Client m) : RecordStore.service.Via m
  | .get key => do return (← c.get key).mapError Fault.toBackendError
  | .put record ttl => do return (← c.put record ttl).mapError Fault.toBackendError
  | .putIfAbsent record ttl => do return (← c.putIfAbsent record ttl).mapError Fault.toBackendError
  | .remove key => do return (← c.remove key).mapError Fault.toBackendError

end Client

end GuardedWrites.KeyValue

import GuardedWrites.Effect.Program
import GuardedWrites.KeyValue.Reply
import GuardedWrites.KeyValue.Script

/-!
# Commands to a key-value server

A `Command` is sent as a list of words, of which stored values are bytes and all others texts. The
server is a service: to each command it replies once.
-/

namespace GuardedWrites.KeyValue

/-- A command. -/
inductive Command where
  | evaluate (script : Script) (key : String) (args : List String)
  | loadScript (script : Script)
  | rangeByScore (key min : String)
  | hashFields (key : String) (fields : List String)
  | scan (cursor : Nat) (pattern : String)
  | delete (keys : List String)
  | get (key : String)
  | put (key : String) (value : List UInt8) (expiryMillis : Nat)
  | putIfAbsent (key : String) (value : List UInt8) (expiryMillis : Nat)
  | ping

/-- One word of a command. -/
inductive Word where
  | text (s : String)
  | bytes (bs : List UInt8)

namespace Command

/-- Keys that one step of a scan is asked for. -/
def scanCount : Nat := 100

/-- The words of a command. A script is called by its name, under which the server knows it. -/
def words : Command → List Word
  | .evaluate script key args => (["EVALSHA", script.name, "1", key] ++ args).map .text
  | .loadScript script => ["SCRIPT", "LOAD", script.text].map .text
  | .rangeByScore key min => ["ZRANGEBYSCORE", key, min, "+inf", "WITHSCORES"].map .text
  | .hashFields key fields => ("HMGET" :: key :: fields).map .text
  | .scan cursor pattern =>
    ["SCAN", toString cursor, "MATCH", pattern, "COUNT", toString scanCount].map .text
  | .delete keys => ("DEL" :: keys).map .text
  | .get key => ["GET", key].map .text
  | .put key value expiry => [.text "PSETEX", .text key, .text (toString expiry), .bytes value]
  | .putIfAbsent key value expiry =>
    [.text "SET", .text key, .bytes value, .text "NX", .text "PX", .text (toString expiry)]
  | .ping => [.text "PING"]

end Command

/-- The server as a service. -/
abbrev service : Service := ⟨Command, fun _ => Reply⟩

end GuardedWrites.KeyValue

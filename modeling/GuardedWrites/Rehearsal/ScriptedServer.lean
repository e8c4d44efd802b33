import GuardedWrites.KeyValue.Client

/-!
# A scripted server

A key-value server that sends prepared replies, one to each command in order, and does not answer
once they have run out. It keeps the commands that it got.
-/

namespace GuardedWrites.Rehearsal

/-- The replies that are left, and the commands so far. -/
structure ScriptedServer where
  replies : List KeyValue.Reply
  commands : List KeyValue.Command

namespace ScriptedServer

/-- The server as a service; no reply means that none will ever come. -/
abbrev service : Service := ⟨KeyValue.Command, fun _ => Option KeyValue.Reply⟩

/-- A command and its reply. -/
def step (c : KeyValue.Command) (s : ScriptedServer) : Option KeyValue.Reply × ScriptedServer :=
  (s.replies.head?, ⟨s.replies.tail, s.commands ++ [c]⟩)

/-- Sends a command and waits for the reply. -/
def send : KeyValue.service.Via (Program service) := fun c => do
  match ← Program.ask (S := service) c with
  | some r => return r
  | none => .hang

/-- What stands for the part of a member that differs from request to request. -/
def anyNonce : String := "*"

/-- A client of the server. -/
def client (config : KeyValue.ClientConfig) : KeyValue.Client (Program service) :=
  ⟨config, send, pure anyNonce⟩

/-- Plays an exchange with prepared replies. The result comes with the commands that were sent. -/
def play {α : Type} (replies : List KeyValue.Reply) (exchange : Program service α) :
    Option α × List KeyValue.Command :=
  let (a, s, _) := exchange.run step ⟨replies, []⟩ 0
  (a, s.commands)

end ScriptedServer

end GuardedWrites.Rehearsal

/-
# A session over a faithful connection

The two programs, and the bytes on their way between them. The connection loses nothing and
changes nothing, holds no more than `capacity` bytes in either direction, takes bytes and gives
them out a few at a time, or none for now, and tells the reader of its end. A program that has
returned has closed its side.

The user's lines are of ordinary length, and the operating system runs the commands without
errors of its own. Nothing is said of how they are scheduled, and both sides may send at once.
-/

import Axsh.Link.Queue
import Axsh.Programs.Transcript

set_option autoImplicit false

namespace Axsh

open PayloadStream
open Hdlc (ReadResult)

variable {C : Crypto}

/-- `run_command_line` waits for the client's stream. -/
def ServerProgram.Sending (s : ServerProgram C) : Prop :=
  match s.serving with
  | .runCommandLine (.writeAll _ _) | .runCommandLine (.flush _) => True
  | _ => False

/-- The operating system has reported no error, and a text of ordinary length for an exit
status. -/
structure ServerProgram.Ran (s : ServerProgram C) : Prop where
  ok : ∀ e, s.serving ≠ .runCommandLine (.returned (.error e))
  display : ∀ status, s.output.status = some status → status.display.length ≤ 4096

/-- The underlying call has succeeded. -/
def succeeded : Poll (Res Unit) → Bool
  | .ready (.ok ()) => true
  | .ready (.error _) | .pending => false

/-- Two programs, the bytes on their way to each, and whether the client has shut its side of the
connection down. -/
structure Link (C : Crypto) where
  client : ClientProgram C
  server : ServerProgram C
  toServer : Bytes
  toClient : Bytes
  ended : Bool

namespace Link

/-- The streams are new, and each verifies with the other's packet key. -/
def start (clientKey serverKey : C.Ed25519KeyPair) (clientNow serverNow : Instant) : Link C where
  client := .start (.new (.new clientKey) (.new (C.ed25519PublicKey serverKey) clientNow))
  server := .start (.new (.new serverKey) (.new (C.ed25519PublicKey clientKey) serverNow))
  toServer := []
  toClient := []
  ended := false

/-- The client has made a call, and goes on in `loop`. -/
def clientSend (l : Link C) (call : SendCall) (loop : MainLoop) : Link C :=
  { l with
    client := { l.client with endpoint := l.client.endpoint.afterSend call, loop }
    toServer := l.toServer ++ (l.client.endpoint.stream.send call).taken }

/-- The client has read, and goes on in `loop`. -/
def clientRead (l : Link C) (call : ReadCall) (loop : MainLoop) : Link C :=
  { l with
    client := { l.client with endpoint := l.client.endpoint.afterRead call, loop }
    toClient := l.toClient.drop
      (call.answers.length - (l.client.endpoint.stream.read call).rest.length) }

/-- The server has made a call. -/
def serverSend (l : Link C) (call : SendCall) (server : ServerProgram C) : Link C :=
  { l with server, toClient := l.toClient ++ (l.server.endpoint.stream.send call).taken }

/-- The server has read. -/
def serverRead (l : Link C) (call : ReadCall) : Link C :=
  { l with
    server := l.server.read call
    toServer := l.toServer.drop
      (call.answers.length - (l.server.endpoint.stream.read call).rest.length) }

/-- The connection takes what a call offers, or some of it, and has room for that. -/
structure Takes (capacity : ℕ) (fifo : Bytes) (stream : PayloadStream C) (call : SendCall) :
    Prop where
  answers : Pipe.Answers call
  room : (fifo ++ (stream.send call).taken).length ≤ capacity

/-- The steps of either program. -/
inductive Step (V : Verifier) (capacity : ℕ) (l : Link C) : Link C → Prop
  | stdinLine (line : Text) (hloop : l.client.loop = .select true) (hline : '\n' ∉ line)
      (hshort : (lineBytes line).length ≤ 32700) :
      Step V capacity l { l with
        client := { l.client with
          loop := .writeAll (lineBytes line), lines := l.client.lines ++ [line] } }
  | stdinEnd (hloop : l.client.loop = .select true) :
      Step V capacity l { l with client := { l.client with loop := .shutdown false } }
  | clientRead (stdinOpen : Bool) (hloop : l.client.loop = .select stdinOpen)
      (clock : ℕ → Instant)
      (hclock : NoIdleGap l.client.endpoint.stream.peerPacketVerify.lastSuccess clock)
      (answers : List ReadResult)
      (hmeets : Meets l.toClient (l.server.serving = .returned) answers) :
      Step V capacity l (l.clientRead ⟨V, clock, 1024, answers⟩
        (.afterRead stdinOpen (l.client.endpoint.stream.read ⟨V, clock, 1024, answers⟩).result))
  | clientWrite (buf : Bytes) (hloop : l.client.loop = .writeAll buf) (answers : List WriteResult)
      (htakes : Takes capacity l.toServer l.client.endpoint.stream (.write buf answers)) :
      Step V capacity l (l.clientSend (.write buf answers)
        (.afterWrite buf (l.client.endpoint.stream.pollWritePayload buf answers).result))
  | clientShutdown (exit : Bool) (hloop : l.client.loop = .shutdown exit)
      (answers : List WriteResult) (poll : Poll (Res Unit))
      (htakes : Takes capacity l.toServer l.client.endpoint.stream (.shutdown answers poll)) :
      Step V capacity l
        { l.clientSend (.shutdown answers poll) (.afterShutdown exit
            (l.client.endpoint.stream.pollShutdownPayload answers poll).result) with
          ended := l.ended ||
            succeeded (l.client.endpoint.stream.pollShutdownPayload answers poll).result }
  | clientFlush (stdinOpen exit : Bool) (hloop : l.client.loop = .flush stdinOpen exit)
      (answers : List WriteResult) (poll : Poll (Res Unit))
      (htakes : Takes capacity l.toServer l.client.endpoint.stream (.flush answers poll)) :
      Step V capacity l (l.clientSend (.flush answers poll) (.afterFlush stdinOpen exit
        (l.client.endpoint.stream.pollFlushPayload answers poll).result))
  | serverRead (hserving : l.server.serving = .nextLine)
      (havailable : l.server.reader.available = [])
      (clock : ℕ → Instant)
      (hclock : NoIdleGap l.server.endpoint.stream.peerPacketVerify.lastSuccess clock)
      (answers : List ReadResult) (hmeets : Meets l.toServer (l.ended = true) answers) :
      Step V capacity l (l.serverRead ⟨V, clock, 8192, answers⟩)
  | serverWrite (buf : Bytes) (next : CommandLine)
      (hserving : l.server.serving = .runCommandLine (.writeAll buf next))
      (answers : List WriteResult)
      (htakes : Takes capacity l.toClient l.server.endpoint.stream (.write buf answers)) :
      Step V capacity l (l.serverSend (.write buf answers) (l.server.write buf next answers))
  | serverFlush (next : CommandLine)
      (hserving : l.server.serving = .runCommandLine (.flush next)) (answers : List WriteResult)
      (poll : Poll (Res Unit))
      (htakes : Takes capacity l.toClient l.server.endpoint.stream (.flush answers poll)) :
      Step V capacity l (l.serverSend (.flush answers poll)
        { l.server with
          endpoint := l.server.endpoint.afterSend (.flush answers poll)
          serving := .runCommandLine
            (.afterFlush next (l.server.endpoint.stream.pollFlushPayload answers poll).result) })
  /-- A step of the server that is not about the connection. -/
  | serverLocal (server : ServerProgram C) (hlocal : ¬ l.server.Sending)
      (hstep : ServerProgram.Step Unread l.server server) (hran : server.Ran) :
      Step V capacity l { l with server }

abbrev Run (V : Verifier) (capacity : ℕ) : Link C → Link C → Prop :=
  Relation.ReflTransGen (Step V capacity)

/-- The way of the lines. -/
def up (l : Link C) : Pipe C where
  sender := l.client.endpoint.stream
  receiver := l.server.endpoint.stream
  fifo := l.toServer
  accepted := l.client.endpoint.accepted
  delivered := l.server.endpoint.delivered

/-- The way of the output. -/
def down (l : Link C) : Pipe C where
  sender := l.server.endpoint.stream
  receiver := l.client.endpoint.stream
  fifo := l.toClient
  accepted := l.server.endpoint.accepted
  delivered := l.client.endpoint.delivered

end Link

/-- The steps are those of the two programs. -/
theorem Link.Step.programs {V : Verifier} {capacity : ℕ} {l l' : Link C}
    (hstep : Link.Step V capacity l l') :
    (l'.server = l.server ∧ ClientProgram.Step (· = V) l.client l'.client) ∨
      l'.client = l.client ∧ ServerProgram.Step (· = V) l.server l'.server := by
  cases hstep with
  | stdinLine line hloop hline hshort => exact .inl ⟨rfl, .stdinLine line hloop hline⟩
  | stdinEnd hloop => exact .inl ⟨rfl, .stdinEnd hloop⟩
  | clientRead stdinOpen hloop clock hclock answers hmeets =>
    exact .inl ⟨rfl, .read stdinOpen hloop ⟨V, clock, 1024, answers⟩ rfl rfl⟩
  | clientWrite buf hloop answers htakes => exact .inl ⟨rfl, .write buf hloop answers⟩
  | clientShutdown exit hloop answers poll htakes =>
    exact .inl ⟨rfl, .shutdown exit hloop answers poll⟩
  | clientFlush stdinOpen exit hloop answers poll htakes =>
    exact .inl ⟨rfl, .flush stdinOpen exit hloop answers poll⟩
  | serverRead hserving havailable clock hclock answers hmeets =>
    exact .inr ⟨rfl, .read hserving havailable ⟨V, clock, 8192, answers⟩ rfl rfl⟩
  | serverWrite buf next hserving answers htakes =>
    exact .inr ⟨rfl, .write buf next hserving answers⟩
  | serverFlush next hserving answers poll htakes =>
    exact .inr ⟨rfl, .flush next hserving answers poll⟩
  | serverLocal server hlocal hstep hran => exact .inr ⟨rfl, hstep.mono fun _ h => h.elim⟩

end Axsh

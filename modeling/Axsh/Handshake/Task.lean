/-
# Handshake tasks

A handshake is an async function: it computes between the points where it awaits
a frame from the stream, `write_all` or `flush`. What it is suspended in is a
`Task`. A frame is read by a frame reader of its own, and the function goes on
with the frame from an await point, which names where in the source it is and
carries the local variables that are live there.

Between two await points the function may call back into the application and
sign. These are recorded as events, with the messages received and written, so
that the order of what a session did can be told from its trace.
-/

import Axsh.Hdlc.Reader
import Axsh.Transport

set_option autoImplicit false

namespace Axsh

open Hdlc (AsyncFrameReader ReadResult)

/-- What a session does: it receives the wire bytes of a message, gets an answer
of the key lookup, asks whether a key is acceptable, signs a message with its
connection key, or writes the wire bytes of a message. -/
inductive Event
  | received (wire : Bytes)
  | lookedUp (hello : ServerHello) (answer : Option Bytes)
  | asked (hello : ServerHello) (publicKey : Bytes) (accepted : Bool)
  | signed (message : Bytes)
  | wrote (wire : Bytes)
  deriving DecidableEq

/-- What a computation meets: the verdicts on signatures, and the clock. -/
structure Moment where
  V : Verifier
  now : Instant

/-! ## Computing between await points -/

/-- A computation that records events and may fail. What it recorded before it
failed stays recorded. -/
@[ext]
structure Act (α : Type) where
  events : List Event
  result : Res α

namespace Act

variable {α β : Type}

/-- Go on with the value, if there is one. -/
def andThen (x : Act α) (f : α → Act β) : Act β :=
  match x.result with
  | .error e => { events := x.events, result := .error e }
  | .ok a => { events := x.events ++ (f a).events, result := (f a).result }

instance : Monad Act where
  pure a := { events := [], result := .ok a }
  bind := andThen

/-- A call that records nothing. -/
def call (result : Res α) : Act α := { events := [], result }

/-- Record an event. -/
def record (event : Event) : Act Unit := { events := [event], result := .ok () }

@[simp] theorem call_ok_bind (a : α) (f : α → Act β) : call (.ok a) >>= f = f a := rfl

end Act

/-- A computation that fails, having recorded `events`. -/
structure Act.FailsWith {α : Type} (act : Act α) (events : List Event) : Prop where
  result : ∃ e, act.result = .error e
  events : act.events = events

/-- Failing after an event has been recorded. -/
theorem Act.FailsWith.record {α : Type} {event : Event} {f : Unit → Act α} {events : List Event}
    (h : (f ()).FailsWith events) : (Act.record event >>= f).FailsWith (event :: events) :=
  ⟨h.result, congrArg (event :: ·) h.events⟩

/-- A computation that fails with a frame, having seen a message in it or not. -/
def Act.Refuses {α : Type} (act : Act α) : Prop :=
  act.FailsWith [] ∨ ∃ wire, act.FailsWith [.received wire]

/-! ## Tasks -/

/-- What a handshake is suspended in, or how it has ended. `K` is the type of the
await points, `R` that of the value it returns. -/
inductive Task (K R : Type)
  | read (reader : AsyncFrameReader) (k : K)
  | write (outbox : Bytes) (next : Task K R)
  | flush (next : Task K R)
  | done (value : R)
  | failed (e : Failure)

/-- The answer of the underlying stream to the poll that a task makes. -/
inductive Answer
  | read (result : ReadResult)
  | write (result : WriteResult)
  | flush (result : Poll (Res Unit))

/-- What a poll of a task did: the events, the bytes that the stream took, and
the task after it. -/
structure Polled (K R : Type) where
  events : List Event
  taken : Bytes
  task : Task K R

namespace Task

variable {K R : Type}

/-- `read_frame_async`, and then the await point `k`. -/
def readFrame (k : K) : Task K R := .read .new k

/-- `stream.write_all(&hdlc::encode(&wire)).await?; stream.flush().await?`, and
then `next`. -/
def send (wire : Bytes) (next : Task K R) : Task K R := .write (Hdlc.encode wire) (.flush next)

/-- The task that a computation ends in. -/
def ofAct (act : Act (Task K R)) : Polled K R where
  events := act.events
  taken := []
  task := match act.result with
    | .ok task => task
    | .error e => .failed e

/-- Poll a task once. `resume` says how the function goes on from an await point
with the frame that was read. An answer to another poll than the one the task
makes changes nothing. -/
def poll (resume : K → Bytes → Act (Task K R)) : Task K R → Answer → Polled K R
  | .read reader k, .read answer =>
    -- The poll stops at every byte, and goes on with the function at the end of a frame.
    match reader.readOne answer with
    | (reader, none) | (reader, some .pending) => ⟨[], [], .read reader k⟩
    | (_, some (.ready result)) =>
      match Hdlc.frameOrEof result with
      | .error e => ⟨[], [], .failed e⟩
      | .ok frame => ofAct (resume k frame)
  | .write outbox next, .write answer =>
    match answer with
    | .pending => ⟨[], [], .write outbox next⟩
    | .error kind message => ⟨[], [], .failed (.error kind message)⟩
    | .wrote n =>
      -- `write_all` fails when the stream takes nothing.
      if min n outbox.length = 0 then
        ⟨[], [], .failed (.error .writeZero "write zero")⟩
      else if outbox.drop n = [] then ⟨[], outbox, next⟩
      else ⟨[], outbox.take n, .write (outbox.drop n) next⟩
  | .flush next, .flush result =>
    match result with
    | .pending => ⟨[], [], .flush next⟩
    | .ready (.error e) => ⟨[], [], .failed e⟩
    | .ready (.ok ()) => ⟨[], [], next⟩
  -- Not the answer to the poll that the task makes.
  | task, _ => ⟨[], [], task⟩

end Task

/-! ## Receiving a message -/

/-- Read a frame's message: decode it and parse the packet, with the verifiers
that the source passes at that point. -/
def receive (V : Verifier) (frame : Bytes) (clientHelloServerUnique : Option UInt64)
    (connVerifier : Option ConnVerify) (quantumInsecure : Bool) : Act (Bytes × Packet) := do
  let wire ← .call (Hdlc.decode frame)
  .record (.received wire)
  let packet ← .call (Packet.deserialize V wire clientHelloServerUnique connVerifier none
    quantumInsecure 0 0).1
  return (wire, packet)

/-- What a computation that starts by receiving a frame does: it refuses the
frame, or the message is a wire form of a packet and the computation goes on with
the two. -/
theorem receive_bind_eq {α : Type} (V : Verifier) (frame : Bytes) (serverUnique? : Option UInt64)
    (connVerifier? : Option ConnVerify) (quantumInsecure : Bool) (f : Bytes × Packet → Act α) :
    (receive V frame serverUnique? connVerifier? quantumInsecure >>= f).Refuses ∨
    ∃ wire packet, Hdlc.decode frame = .ok wire ∧
      Packet.IsWire V serverUnique? connVerifier? none quantumInsecure 0 wire packet ∧
      receive V frame serverUnique? connVerifier? quantumInsecure >>= f =
        ⟨.received wire :: (f (wire, packet)).events, (f (wire, packet)).result⟩ := by
  -- A frame that does not decode is refused unseen, one that does not parse after it was recorded.
  match hdecode : Hdlc.decode frame with
  | .error e =>
    refine .inl (.inl ?_)
    rw [receive, hdecode]
    exact ⟨⟨e, rfl⟩, rfl⟩
  | .ok wire =>
    match hpacket : (Packet.deserialize V wire serverUnique? connVerifier? none quantumInsecure 0
        0).1 with
    | .error e =>
      refine .inl (.inr ⟨wire, ?_⟩)
      rw [receive, hdecode, Act.call_ok_bind, hpacket]
      exact ⟨⟨e, rfl⟩, rfl⟩
    | .ok packet =>
      refine .inr ⟨wire, packet, rfl, Packet.isWire_of_deserialize V _ _ _ _ _ _ hpacket, ?_⟩
      rw [receive, hdecode, Act.call_ok_bind, hpacket]
      rfl

/-- Failing with a received message, and nothing else done, is refusing it. -/
theorem Act.FailsWith.refuses {α : Type} {act rest : Act α} {wire : Bytes}
    (hact : act = ⟨.received wire :: rest.events, rest.result⟩) (h : rest.FailsWith []) :
    act.Refuses := by
  rw [hact]
  exact .inr ⟨wire, h.result, congrArg (Event.received wire :: ·) h.events⟩

/-- A call that fails records nothing. -/
theorem Act.failsWith_call {α : Type} (e : Failure) : (Act.call (.error e) : Act α).FailsWith [] :=
  ⟨⟨e, rfl⟩, rfl⟩

/-- A frame of a packet's wire form is received as that packet. -/
theorem receive_of_isWire {V : Verifier} {frame wire : Bytes} {serverUnique? : Option UInt64}
    {connVerifier? : Option ConnVerify} {quantumInsecure : Bool} {packet : Packet}
    (hdecode : Hdlc.decode frame = .ok wire)
    (h : Packet.IsWire V serverUnique? connVerifier? none quantumInsecure 0 wire packet) :
    receive V frame serverUnique? connVerifier? quantumInsecure =
      ⟨[.received wire], .ok (wire, packet)⟩ := by
  rw [receive, hdecode, Act.call_ok_bind, h.deserialize_eq V _ _ _ _ _ 0]
  rfl

end Axsh

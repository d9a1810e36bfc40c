/-
# The payload transport

`PayloadStream` turns reads and writes of the application into signed payload
packets on an underlying byte stream. Every operation is a poll: it may stop when
the stream is pending and is called again later, so what a call leaves in the
state is as much part of its meaning as what it returns.

The underlying stream is given by its answers, one for each poll of it. A write
poll takes the front of what it is offered, and the operation says which bytes
were taken. `unsent` and `unread` are what the two buffers still hold; the spec
lemmas say what each operation does to them.
-/

import Axsh.Hdlc.Reader
import Axsh.Packet

set_option autoImplicit false

namespace Axsh

open Hdlc (AsyncFrameReader ReadResult)

/-- What polling the underlying stream to write returns. A stream takes no more
than it is offered. -/
inductive WriteResult
  | pending
  | error (kind : ErrorKind) (message : String)
  | wrote (n : ℕ)
  deriving DecidableEq, Repr

/-- A payload stream, without the underlying stream. -/
structure PayloadStream (C : Crypto) where
  packetSign : PacketSign C
  peerPacketVerify : PacketVerify
  frameReader : AsyncFrameReader
  readBuffer : Bytes
  readOffset : ℕ
  writeBuffer : Bytes
  writeOffset : ℕ

/-- The outcome of an operation that writes: the bytes the underlying stream
took, the answers of that stream that are left, and the value returned. -/
structure Written (C : Crypto) (α : Type) where
  stream : PayloadStream C
  taken : Bytes
  rest : List WriteResult
  result : Poll (Res α)

/-- The outcome of an operation that reads. -/
structure Fetched (C : Crypto) (α : Type) where
  stream : PayloadStream C
  rest : List ReadResult
  result : Poll (Res α)

namespace PayloadStream

variable {C : Crypto}

/-- Create a payload transport from packet keys. -/
def new (packetSign : PacketSign C) (peerPacketVerify : PacketVerify) : PayloadStream C where
  packetSign := packetSign
  peerPacketVerify := peerPacketVerify
  frameReader := AsyncFrameReader.new
  readBuffer := []
  readOffset := 0
  writeBuffer := []
  writeOffset := 0

/-! ## Writing -/

/-- The end of `poll_drain_write_buffer`, after its loop. -/
def clearDrained (self : PayloadStream C) : PayloadStream C :=
  if self.writeOffset = self.writeBuffer.length then
    { self with writeBuffer := [], writeOffset := 0 }
  else self

/-- `poll_drain_write_buffer`: offer the queued bytes to the underlying stream
until it has taken all of them. -/
def pollDrainWriteBuffer (self : PayloadStream C) : List WriteResult → Written C Unit
  | [] =>
    if self.writeOffset < self.writeBuffer.length then
      { stream := self, taken := [], rest := [], result := .pending }
    else { stream := self.clearDrained, taken := [], rest := [], result := .ready (.ok ()) }
  | answer :: rest =>
    if self.writeOffset < self.writeBuffer.length then
      let offered := self.writeBuffer.drop self.writeOffset
      match answer with
      | .pending => { stream := self, taken := [], rest, result := .pending }
      | .error kind message =>
        { stream := self, taken := [], rest, result := .ready (.error (.error kind message)) }
      | .wrote n =>
        -- The underlying stream takes no more than it is offered.
        let written := min n offered.length
        if written = 0 then
          { stream := self, taken := [], rest
            result := .ready (.error (.error .writeZero "failed to write framed payload")) }
        else
          let next :=
            { self with writeOffset := self.writeOffset + written }.pollDrainWriteBuffer rest
          { next with taken := offered.take written ++ next.taken }
    else
      { stream := self.clearDrained, taken := [], rest := answer :: rest
        result := .ready (.ok ()) }

/-- Sign a payload packet and make its frame the write buffer, as
`poll_write_payload` and `poll_queue_keepalive` do. -/
def queuePayload (self : PayloadStream C) (data : Bytes) : Res (PayloadStream C) := do
  let packet := Packet.payload data
  let (wire, packetSign) ← packet.serializePacketSigned self.packetSign
  return { self with packetSign, writeBuffer := Hdlc.encode wire, writeOffset := 0 }

/-- `poll_write_payload`. -/
def pollWritePayload (self : PayloadStream C) (buf : Bytes) (answers : List WriteResult) :
    Written C ℕ :=
  let drained := self.pollDrainWriteBuffer answers
  match drained.result with
  | .pending => { drained with result := .pending }
  | .ready (.error e) => { drained with result := .ready (.error e) }
  | .ready (.ok ()) =>
    -- No packet for an empty buffer: an empty payload is a keepalive.
    if buf.isEmpty then { drained with result := .ready (.ok 0) }
    else
      match drained.stream.queuePayload buf with
      | .error e => { drained with result := .ready (.error e) }
      | .ok stream => { drained with stream, result := .ready (.ok buf.length) }

/-- `poll_queue_keepalive`: queue an empty payload packet. -/
def pollQueueKeepalive (self : PayloadStream C) (answers : List WriteResult) : Written C Unit :=
  let drained := self.pollDrainWriteBuffer answers
  match drained.result with
  | .pending => { drained with result := .pending }
  | .ready (.error e) => { drained with result := .ready (.error e) }
  | .ready (.ok ()) =>
    match drained.stream.queuePayload [] with
    | .error e => { drained with result := .ready (.error e) }
    | .ok stream => { drained with stream, result := .ready (.ok ()) }

/-- `poll_flush_payload` and `poll_shutdown_payload`: drain, then hand the call on
to the underlying stream, which answers `underlying`. -/
def pollDrainThen (self : PayloadStream C) (answers : List WriteResult)
    (underlying : Poll (Res Unit)) : Written C Unit :=
  let drained := self.pollDrainWriteBuffer answers
  match drained.result with
  | .pending => { drained with result := .pending }
  | .ready (.error e) => { drained with result := .ready (.error e) }
  | .ready (.ok ()) => { drained with result := underlying }

/-- `poll_flush_payload`. -/
def pollFlushPayload (self : PayloadStream C) (answers : List WriteResult)
    (pollFlush : Poll (Res Unit)) : Written C Unit :=
  self.pollDrainThen answers pollFlush

/-- `poll_shutdown_payload`. -/
def pollShutdownPayload (self : PayloadStream C) (answers : List WriteResult)
    (pollShutdown : Poll (Res Unit)) : Written C Unit :=
  self.pollDrainThen answers pollShutdown

/-! ## Reading -/

/-- What the loop in `poll_fill_read_buffer` does with a frame: the state after
it, and the return value unless the loop goes on. -/
def handleFrame (V : Verifier) (self : PayloadStream C) (frame : Bytes) (now later : Instant) :
    PayloadStream C × Option (Res Bool) :=
  match Hdlc.decode frame with
  | .error e => (self, some (.error e))
  | .ok wire =>
    -- Only a payload is expected here, so the mode of the handshake is not passed on.
    let (packet, verifier) :=
      Packet.deserialize V wire none none (some self.peerPacketVerify) false now later
    let self := { self with peerPacketVerify := verifier.getD self.peerPacketVerify }
    match packet with
    | .error e => (self, some (.error e))
    | .ok (.payload data) =>
      -- `continue`: a keepalive fills nothing.
      if data.isEmpty then (self, none)
      else ({ self with readBuffer := data, readOffset := 0 }, some (.ok true))
    | .ok other => (self, some (bail s!"expected Payload, got {other.debug}"))

/-- `poll_fill_read_buffer`. The call's `i`th verification makes the clock
readings `clock (2 * i)` and `clock (2 * i + 1)`. -/
def pollFillReadBuffer (V : Verifier) (clock : ℕ → Instant) (self : PayloadStream C)
    (answers : List ReadResult) : Fetched C Bool :=
  match _h : self.frameReader.pollReadFrame answers with
  | (frameReader, rest, .pending) =>
    { stream := { self with frameReader }, rest, result := .pending }
  | (frameReader, rest, .ready (.error e)) =>
    { stream := { self with frameReader }, rest, result := .ready (.error e) }
  | (frameReader, rest, .ready (.ok none)) =>
    { stream := { self with frameReader }, rest, result := .ready (.ok false) }
  | (frameReader, rest, .ready (.ok (some frame))) =>
    match { self with frameReader }.handleFrame V frame (clock 0) (clock 1) with
    | (stream, some result) => { stream, rest, result := .ready result }
    | (stream, none) => stream.pollFillReadBuffer V (fun i => clock (i + 2)) rest
termination_by answers.length
decreasing_by exact AsyncFrameReader.length_rest_lt _h

/-- Copy unread bytes to the caller, as many as fit, and advance. -/
def copyOut (self : PayloadStream C) (remaining : ℕ) : Res (PayloadStream C × Bytes) := do
  let available ← usizeSub self.readBuffer.length self.readOffset
  let toCopy := min available remaining
  let out ← slice self.readBuffer self.readOffset (self.readOffset + toCopy)
  let self := { self with readOffset := self.readOffset + toCopy }
  if self.readOffset = self.readBuffer.length then
    return ({ self with readBuffer := [], readOffset := 0 }, out)
  else
    return (self, out)

/-- `poll_read_payload` into a buffer with `remaining` bytes of room. It returns
the bytes put there. -/
def pollReadPayload (V : Verifier) (clock : ℕ → Instant) (self : PayloadStream C)
    (remaining : ℕ) (answers : List ReadResult) : Fetched C Bytes :=
  if remaining = 0 then { stream := self, rest := answers, result := .ready (.ok []) }
  else
    let filled : Fetched C Bool :=
      if self.readOffset = self.readBuffer.length then self.pollFillReadBuffer V clock answers
      else { stream := self, rest := answers, result := .ready (.ok true) }
    match filled.result with
    | .pending => { stream := filled.stream, rest := filled.rest, result := .pending }
    | .ready (.error e) =>
      { stream := filled.stream, rest := filled.rest, result := .ready (.error e) }
    | .ready (.ok false) =>
      { stream := filled.stream, rest := filled.rest, result := .ready (.ok []) }
    | .ready (.ok true) =>
      match filled.stream.copyOut remaining with
      | .error e => { stream := filled.stream, rest := filled.rest, result := .ready (.error e) }
      | .ok (stream, out) => { stream, rest := filled.rest, result := .ready (.ok out) }

end PayloadStream

end Axsh

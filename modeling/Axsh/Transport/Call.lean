/-
# Calls on a payload stream

The operations an application may make on a stream, each with the answers its
environment gives to it, and what a call leaves behind for an observer: the bytes
that reached the underlying stream, the payload that was signed, the bytes of the
caller's buffer that were accepted. Systems of streams are built from these.
-/

import Axsh.Transport.Writing
import Axsh.Transport.Reading

set_option autoImplicit false

namespace Axsh.PayloadStream

open Hdlc (ReadResult)

variable {C : Crypto}

/-- The calls that may send bytes. -/
inductive SendCall
  | write (buf : Bytes) (answers : List WriteResult)
  | keepalive (answers : List WriteResult)
  | flush (answers : List WriteResult) (pollFlush : Poll (Res Unit))
  | shutdown (answers : List WriteResult) (pollShutdown : Poll (Res Unit))

/-- A read call: the verdicts and clock readings it gets, the room in the caller's
buffer, and the answers of the underlying stream. -/
structure ReadCall where
  V : Verifier
  clock : ℕ → Instant
  remaining : ℕ
  answers : List ReadResult

/-- Any call. -/
inductive Call
  | send (call : SendCall)
  | read (call : ReadCall)

/-- What a sending call did: the new stream, the bytes taken by the underlying
stream, the payload it signed, the bytes it accepted from the caller, and its
error if it failed. -/
structure Sent (C : Crypto) where
  stream : PayloadStream C
  taken : Bytes
  signed : Option Bytes
  accepted : Bytes
  failure : Option Failure

/-- The error of a call that failed. -/
def failureOf {α : Type} : Poll (Res α) → Option Failure
  | .ready (.error e) => some e
  | _ => none

/-- The bytes of `buf` that a write call has accepted. -/
def acceptedBy (buf : Bytes) : Poll (Res ℕ) → Bytes
  | .ready (.ok n) => buf.take n
  | _ => []

/-- Make a sending call. -/
def send (self : PayloadStream C) : SendCall → Sent C
  | .write buf answers =>
    let out := self.pollWritePayload buf answers
    { stream := out.stream, taken := out.taken, signed := signedByWrite buf out.result
      accepted := acceptedBy buf out.result, failure := failureOf out.result }
  | .keepalive answers =>
    let out := self.pollQueueKeepalive answers
    { stream := out.stream, taken := out.taken, signed := signedByKeepalive out.result
      accepted := [], failure := failureOf out.result }
  | .flush answers pollFlush =>
    let out := self.pollFlushPayload answers pollFlush
    { stream := out.stream, taken := out.taken, signed := none, accepted := []
      failure := failureOf out.result }
  | .shutdown answers pollShutdown =>
    let out := self.pollShutdownPayload answers pollShutdown
    { stream := out.stream, taken := out.taken, signed := none, accepted := []
      failure := failureOf out.result }

/-- Make a read call. -/
def read (self : PayloadStream C) (call : ReadCall) : Fetched C Bytes :=
  self.pollReadPayload call.V call.clock call.remaining call.answers

/-- Both offsets lie within their buffers. -/
structure Bounded (stream : PayloadStream C) : Prop where
  read : stream.readOffset ≤ stream.readBuffer.length
  write : stream.writeOffset ≤ stream.writeBuffer.length

theorem bounded_new (packetSign : PacketSign C) (verifier : PacketVerify) :
    (new packetSign verifier).Bounded := ⟨le_rfl, le_rfl⟩

/-- The two streams differ in their write side at most: the signer and the write
buffer. -/
structure SameRead (before next : PayloadStream C) : Prop where
  peerPacketVerify : next.peerPacketVerify = before.peerPacketVerify
  frameReader : next.frameReader = before.frameReader
  readBuffer : next.readBuffer = before.readBuffer
  readOffset : next.readOffset = before.readOffset

/-- The two streams differ in their read side at most. -/
structure SameWrite (before next : PayloadStream C) : Prop where
  packetSign : next.packetSign = before.packetSign
  writeBuffer : next.writeBuffer = before.writeBuffer
  writeOffset : next.writeOffset = before.writeOffset

theorem Drains.sameRead {self next : PayloadStream C} {taken : Bytes}
    (h : Drains self next taken) : SameRead self next := by
  rw [h.frame]
  exact ⟨rfl, rfl, rfl, rfl⟩

theorem Sends.sameRead {self next : PayloadStream C} {taken : Bytes} {signed : Option Bytes}
    (h : Sends self next taken signed) : SameRead self next := by
  cases signed with
  | none => exact Drains.sameRead h
  | some data =>
    obtain ⟨rfl, -⟩ := h
    exact ⟨rfl, rfl, rfl, rfl⟩

theorem Sends.bounded {self next : PayloadStream C} {taken : Bytes} {signed : Option Bytes}
    (h : Sends self next taken signed) (hself : self.Bounded) : next.Bounded := by
  have hread := h.sameRead
  refine ⟨by rw [hread.readOffset, hread.readBuffer]; exact hself.read, ?_⟩
  cases signed with
  | none => exact Drains.bounded h
  | some data =>
    obtain ⟨rfl, -⟩ := h
    exact Nat.zero_le _

/-- A sending call drains, or signs and queues one payload; what it accepts from
the caller is what it signs. -/
theorem send_spec {self : PayloadStream C} (h : self.Bounded) (call : SendCall) :
    Sends self (self.send call).stream (self.send call).taken (self.send call).signed ∧
      (self.send call).accepted = (self.send call).signed.getD [] := by
  cases call with
  | write buf answers =>
    obtain ⟨hsends, hlen⟩ := pollWritePayload_spec h.write buf answers
    refine ⟨hsends, ?_⟩
    cases hresult : (self.pollWritePayload buf answers).result using Poll.resultCases with
    | pending | error e => simp only [send, hresult]; rfl
    | ok n =>
      obtain rfl := hlen n hresult
      simp only [send, hresult, acceptedBy, signedByWrite, List.take_length]
      split_ifs with hbuf
      · exact List.isEmpty_iff.mp hbuf
      · rfl
  | keepalive answers =>
    refine ⟨pollQueueKeepalive_spec h.write answers, ?_⟩
    cases hresult : (self.pollQueueKeepalive answers).result using Poll.resultCases with
    | pending | error e | ok u => simp only [send, hresult]; rfl
  | flush answers pollFlush => exact ⟨(pollDrainThen_spec h.write answers pollFlush).1, rfl⟩
  | shutdown answers pollShutdown =>
    exact ⟨(pollDrainThen_spec h.write answers pollShutdown).1, rfl⟩

/-- A read call leaves the write side as it is. -/
theorem read_sameWrite {self : PayloadStream C} (h : self.Bounded) (call : ReadCall) :
    SameWrite self (self.read call).stream ∧ (self.read call).stream.Bounded := by
  have hrule := pollReadPayload_rule call.V (fun stream _ => SameWrite self stream)
    (fun stream _ frameReader hsame => ⟨hsame.packetSign, hsame.writeBuffer, hsame.writeOffset⟩)
    (fun stream _ frame data now later hsame _ _ => by
      unfold received
      split_ifs
      all_goals exact ⟨hsame.packetSign, hsame.writeBuffer, hsame.writeOffset⟩)
    (fun stream next _ out hsame hnext _ => by
      rw [hnext]
      exact ⟨hsame.packetSign, hsame.writeBuffer, hsame.writeOffset⟩)
    self [] ⟨rfl, rfl, rfl⟩ h.read call.clock call.remaining call.answers
  refine ⟨hrule.1, hrule.2, ?_⟩
  rw [read, hrule.1.writeOffset, hrule.1.writeBuffer]
  exact h.write

end Axsh.PayloadStream

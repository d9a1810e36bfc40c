/-
# The write side

Any calls of the sending application, over an underlying stream that answers them in any
way. What the stream has taken and what is still unsent are together the frames of the
payloads that were signed, one for each counter, in order (`Conserves`). A call that does
not succeed signs nothing, so a retry is no repetition, and a flush or a shutdown that
succeeds has handed over everything.
-/

import Axsh.Crypto.Sample
import Axsh.Transport.Receiving

set_option autoImplicit false

namespace Axsh

open PayloadStream

/-- A payload stream, with what its environment has seen of its write side: the bytes that
the underlying stream has taken, and the payloads that were signed, a buffer that a write
accepted or nothing for a keepalive. -/
structure Writer (C : Crypto) where
  stream : PayloadStream C
  taken : Bytes
  signed : List Bytes

namespace Writer

variable {C : Crypto}

/-- A new stream. -/
def start (keyPair : C.Ed25519KeyPair) (peerPacketVerify : PacketVerify) : Writer C where
  stream := PayloadStream.new (PacketSign.new keyPair) peerPacketVerify
  taken := []
  signed := []

/-- The writer after a call. -/
def after (w : Writer C) (call : SendCall) : Writer C :=
  let sent := w.stream.send call
  { stream := sent.stream
    taken := w.taken ++ sent.taken
    signed := w.signed ++ sent.signed.toList }

/-- The writer after some calls. -/
def run (w : Writer C) (calls : List SendCall) : Writer C := calls.foldl after w

/-- The call returned `Ready(Ok)`. -/
def Succeeds {α : Type} : Poll (Res α) → Prop
  | .ready (.ok _) => True
  | _ => False

/-- A sending call succeeds. -/
def CallSucceeds (stream : PayloadStream C) : SendCall → Prop
  | .write buf answers => Succeeds (stream.pollWritePayload buf answers).result
  | .keepalive answers => Succeeds (stream.pollQueueKeepalive answers).result
  | .flush answers pollFlush => Succeeds (stream.pollFlushPayload answers pollFlush).result
  | .shutdown answers pollShutdown =>
    Succeeds (stream.pollShutdownPayload answers pollShutdown).result

/-- A flush or a shutdown. -/
def Flushes : SendCall → Prop
  | .flush _ _ | .shutdown _ _ => True
  | .write _ _ | .keepalive _ => False

/-! ## Conservation -/

/-- The frames of the payloads, each signed with its number as the counter. -/
def frames (keyPair : C.Ed25519KeyPair) (payloads : List Bytes) : Bytes :=
  (payloads.mapIdx fun i data => payloadFrame ⟨keyPair, UInt64.ofNat i⟩ data).flatten

theorem frames_concat (keyPair : C.Ed25519KeyPair) (payloads : List Bytes) (data : Bytes) :
    frames keyPair (payloads ++ [data]) =
      frames keyPair payloads ++ payloadFrame ⟨keyPair, UInt64.ofNat payloads.length⟩ data := by
  rw [frames, List.mapIdx_concat, List.flatten_append, List.flatten_singleton]
  rfl

/-- The signer has counted the payloads signed, and their frames are what was taken and what
is unsent. -/
structure Conserves (w : Writer C) (keyPair : C.Ed25519KeyPair) : Prop where
  bounded : w.stream.Bounded
  packetSign : w.stream.packetSign = ⟨keyPair, UInt64.ofNat w.signed.length⟩
  bytes : w.taken ++ w.stream.unsent = frames keyPair w.signed

theorem conserves_start (keyPair : C.Ed25519KeyPair) (peerPacketVerify : PacketVerify) :
    (start keyPair peerPacketVerify).Conserves keyPair where
  bounded := bounded_new _ _
  packetSign := rfl
  bytes := rfl

/-- Without a signature the signer is as it was. -/
theorem packetSign_of_signed {stream : PayloadStream C} (hbounded : stream.Bounded)
    {call : SendCall} (h : (stream.send call).signed = none) :
    (stream.send call).stream.packetSign = stream.packetSign := by
  obtain ⟨hsends, -⟩ := send_spec hbounded call
  rw [h] at hsends
  exact Drains.packetSign hsends

/-- A call moves bytes to the underlying stream, and adds the frame of what it signs behind
them. -/
theorem Conserves.after {w : Writer C} {keyPair : C.Ed25519KeyPair} (h : w.Conserves keyPair)
    (call : SendCall) : (w.after call).Conserves keyPair := by
  obtain ⟨hsends, -⟩ := send_spec h.bounded call
  have hbounded := hsends.bounded h.bounded
  have hbytes := h.bytes
  match hsigned : (w.stream.send call).signed with
  | none =>
    rw [hsigned] at hsends
    -- A drain moves bytes from the unsent ones to the taken ones.
    have hsame : (w.after call).signed = w.signed := by
      change w.signed ++ (w.stream.send call).signed.toList = w.signed
      rw [hsigned]
      exact List.append_nil _
    refine ⟨hbounded, ?_, ?_⟩
    · rw [hsame, ← h.packetSign]
      exact packetSign_of_signed h.bounded hsigned
    · rw [hsends.unsent_eq, ← List.append_assoc] at hbytes
      rw [hsame]
      exact hbytes
  | some data =>
    rw [hsigned] at hsends
    -- The frame of the payload is queued behind all that was unsent, which was taken before.
    have hadded : (w.after call).signed = w.signed ++ [data] := by
      change w.signed ++ (w.stream.send call).signed.toList = _
      rw [hsigned]
      rfl
    have hsign := Queues.packetSign hsends
    have hunsent := Queues.unsent hsends
    refine ⟨hbounded, ?_, ?_⟩
    · rw [hadded, List.length_append, List.length_singleton, UInt64.ofNat_add]
      rw [h.packetSign] at hsign
      exact hsign
    · rw [hadded, frames_concat, ← hbytes, ← hsends.taken_eq, ← h.packetSign, ← hunsent]
      rfl

/-- Any calls conserve the bytes. -/
theorem Conserves.run {w : Writer C} {keyPair : C.Ed25519KeyPair} (h : w.Conserves keyPair)
    (calls : List SendCall) : (w.run calls).Conserves keyPair := by
  induction calls generalizing w with
  | nil => exact h
  | cons call calls ih => exact ih (h.after call)

/-! ## The outcome of a call -/

/-- A call that does not succeed signs nothing. -/
theorem signed_of_not_succeeds {stream : PayloadStream C} {call : SendCall}
    (h : ¬ CallSucceeds stream call) : (stream.send call).signed = none := by
  cases call with
  | write buf answers =>
    cases hresult : (stream.pollWritePayload buf answers).result using Poll.resultCases with
    | pending | error e => simp only [send, hresult, signedByWrite]
    | ok n =>
      simp only [CallSucceeds, hresult, Succeeds, not_true] at h
  | keepalive answers =>
    cases hresult : (stream.pollQueueKeepalive answers).result using Poll.resultCases with
    | pending | error e => simp only [send, hresult, signedByKeepalive]
    | ok u =>
      simp only [CallSucceeds, hresult, Succeeds, not_true] at h
  | flush answers pollFlush => rfl
  | shutdown answers pollShutdown => rfl

/-- A flush or a shutdown that succeeds leaves nothing unsent. -/
theorem unsent_of_flushes {stream : PayloadStream C} (hbounded : stream.Bounded) {call : SendCall}
    (hflushes : Flushes call) (h : CallSucceeds stream call) :
    (stream.send call).stream.unsent = [] := by
  have hdrain : ∀ answers underlying, Succeeds (stream.pollDrainThen answers underlying).result →
      (stream.pollDrainThen answers underlying).stream.unsent = [] := by
    intro answers underlying hsucceeds
    cases hresult : (stream.pollDrainThen answers underlying).result using Poll.resultCases with
    | pending | error e =>
      rw [hresult] at hsucceeds
      exact hsucceeds.elim
    | ok u => exact (pollDrainThen_spec hbounded.write answers underlying).2 hresult
  cases call with
  | write buf answers => exact hflushes.elim
  | keepalive answers => exact hflushes.elim
  | flush answers pollFlush => exact hdrain answers pollFlush h
  | shutdown answers pollShutdown => exact hdrain answers pollShutdown h

/-- After any calls over any answers of the underlying stream, what it has taken and what is
unsent are the frames of the payloads signed, one for each counter so far. The next call
signs nothing unless it succeeds, and a flush or a shutdown succeeds only with everything
taken. -/
theorem write_conservation (keyPair : C.Ed25519KeyPair) (peerPacketVerify : PacketVerify)
    (calls : List SendCall)
    (hcount : ((start keyPair peerPacketVerify).run calls).signed.length < 2 ^ 64) :
    let w := (start keyPair peerPacketVerify).run calls
    w.taken ++ w.stream.writeBuffer.drop w.stream.writeOffset = frames keyPair w.signed ∧
      w.stream.packetSign.signCounter.toNat = w.signed.length ∧
      (∀ call, ¬ CallSucceeds w.stream call →
        (w.after call).signed = w.signed ∧
          (w.after call).stream.packetSign = w.stream.packetSign) ∧
      ∀ call, Flushes call → CallSucceeds w.stream call →
        (w.after call).taken = frames keyPair (w.after call).signed := by
  intro w
  have h : w.Conserves keyPair := (conserves_start keyPair peerPacketVerify).run calls
  refine ⟨h.bytes, ?_, fun call hfails => ?_, fun call hflushes hsucceeds => ?_⟩
  · rw [h.packetSign, UInt64.toNat_ofNat', Nat.mod_eq_of_lt hcount]
  · have hsigned := signed_of_not_succeeds hfails
    refine ⟨?_, packetSign_of_signed h.bounded hsigned⟩
    change w.signed ++ (w.stream.send call).signed.toList = w.signed
    rw [hsigned]
    exact List.append_nil _
  · -- With nothing unsent, the bytes conserved are all taken.
    have hunsent := unsent_of_flushes h.bounded hflushes hsucceeds
    rw [← (h.after call).bytes]
    exact ((congrArg ((w.after call).taken ++ ·) hunsent).trans (List.append_nil _)).symm

/-- After a write a sample stream holds one frame. -/
theorem write_conservation_sample :
    let w := (start (C := Crypto.sample) (0 : UInt8) (.sample 1)).run [.write [7, 8] []]
    w.taken ++ w.stream.writeBuffer.drop w.stream.writeOffset =
        frames (C := Crypto.sample) (0 : UInt8) [[7, 8]] ∧
      w.stream.packetSign.signCounter.toNat = 1 := by
  obtain ⟨hbytes, hcounter, -, -⟩ := write_conservation (C := Crypto.sample) (0 : UInt8) (.sample 1)
    [.write [7, 8] []] (by decide)
  exact ⟨hbytes, hcounter⟩

end Writer

end Axsh

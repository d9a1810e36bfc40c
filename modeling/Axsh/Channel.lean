/-
# The payload channel under attack

A sender and a receiver are payload streams whose bytes all pass through an
attacker: whatever the underlying streams answer is the attacker's choice. The
applications on both sides make any calls in any order. The only assumption is
about the sender's packet key: a signature is accepted under it only over an
input that the sender has signed.

The channel follows a cursor on the log of signed payloads. A call of the sender
appends to the log or leaves it, and a frame that the receiver accepts advances
the position by one; the bytes delivered and the bytes still unread are together
the payloads passed so far (`Follows`).
-/

import Axsh.Lib.Cursor
import Axsh.Crypto.Sample
import Axsh.Transport.Genuine

set_option autoImplicit false

namespace Axsh

open PayloadStream

/-- A sender, a receiver, and what an observer of their applications has seen:
the inputs signed with the sender's packet key, the bytes the sender's writes
accepted, and the bytes the receiver's reads delivered. -/
structure Channel (C : Crypto) where
  sender : PayloadStream C
  receiver : PayloadStream C
  signed : List Bytes
  accepted : Bytes
  delivered : Bytes

namespace Channel

variable {C : Crypto}

/-- Two new streams of which the receiver's verifier holds the sender's packet
key. The other two keys are arbitrary. -/
def start (senderKey : C.Ed25519KeyPair) (senderVerify : PacketVerify)
    (receiverSign : PacketSign C) (now : Instant) : Channel C where
  sender := PayloadStream.new (PacketSign.new senderKey) senderVerify
  receiver := PayloadStream.new receiverSign
    (PacketVerify.new (C.ed25519PublicKey senderKey) now)
  signed := []
  accepted := []
  delivered := []

/-- The channel after a sending call of the sender. -/
def afterSend (w : Channel C) (call : SendCall) : Channel C :=
  let sent := w.sender.send call
  let input := packetSignatureInput w.sender.packetSign.signCounter
  { w with
    sender := sent.stream
    signed := w.signed ++ (sent.signed.map input).toList
    accepted := w.accepted ++ sent.accepted }

/-- The channel after a read call of the receiver. -/
def afterRead (w : Channel C) (call : ReadCall) : Channel C :=
  let read := w.receiver.read call
  { w with receiver := read.stream, delivered := w.delivered ++ deliveredBy read.result }

/-- Any call of either application. The verdicts a read of the receiver gets are
those of an Ed25519 that nobody has forged under the sender's key so far. -/
inductive Step : Channel C → Channel C → Prop
  | send (w : Channel C) (call : SendCall) : Step w (w.afterSend call)
  | senderRead (w : Channel C) (call : ReadCall) :
      Step w { w with sender := (w.sender.read call).stream }
  | receiverSend (w : Channel C) (call : SendCall) :
      Step w { w with receiver := (w.receiver.send call).stream }
  | read (w : Channel C) (call : ReadCall)
      (unforged : call.V.Ed25519Unforgeable w.sender.packetSign.publicKeyBytes.1
        (· ∈ w.signed)) :
      Step w (w.afterRead call)

/-- Any number of calls. -/
abbrev Run : Channel C → Channel C → Prop := Relation.ReflTransGen Step

/-! ## The cursor a channel follows -/

/-- The input that is signed for the `i`th payload. -/
def signatureInput (i : ℕ) (data : Bytes) : Bytes := packetSignatureInput (UInt64.ofNat i) data

/-- The channel is where the cursor is: the log holds what was signed, and the
receiver has accepted what is before the position. -/
structure Follows (w : Channel C) (c : Cursor Bytes) : Prop where
  senderBounded : w.sender.Bounded
  receiverBounded : w.receiver.Bounded
  publicKey : w.receiver.peerPacketVerify.publicKey = w.sender.packetSign.publicKeyBytes
  signCounter : w.sender.packetSign.signCounter = UInt64.ofNat c.log.length
  verifyCounter : w.receiver.peerPacketVerify.verifyCounter = UInt64.ofNat c.pos
  signed : w.signed = c.labelled signatureInput
  accepted : w.accepted = c.log.flatten
  delivered : w.delivered ++ w.receiver.unread = c.taken.flatten

theorem follows_start (senderKey : C.Ed25519KeyPair) (senderVerify : PacketVerify)
    (receiverSign : PacketSign C) (now : Instant) :
    (start senderKey senderVerify receiverSign now).Follows .start where
  senderBounded := bounded_new _ _
  receiverBounded := bounded_new _ _
  publicKey := rfl
  signCounter := rfl
  verifyCounter := rfl
  signed := rfl
  accepted := rfl
  delivered := rfl

/-- A sending call appends what it signs to the log. -/
theorem Follows.afterSend {w : Channel C} {c : Cursor Bytes} (h : w.Follows c)
    (call : SendCall) : ∃ c', (w.afterSend call).Follows c' ∧
      c'.log = c.log ++ (w.sender.send call).signed.toList := by
  obtain ⟨hsends, haccepted⟩ := send_spec h.senderBounded call
  have hbounded := hsends.bounded h.senderBounded
  match hsigned : (w.sender.send call).signed with
  | none =>
    rw [hsigned] at hsends haccepted
    -- A drain: the cursor stays where it is.
    have hsign := Drains.packetSign hsends
    refine ⟨c, ⟨hbounded, h.receiverBounded, ?_, ?_, h.verifyCounter, ?_, ?_, h.delivered⟩,
      (List.append_nil _).symm⟩
    · exact h.publicKey.trans (congrArg PacketSign.publicKeyBytes hsign.symm)
    · exact (congrArg PacketSign.signCounter hsign).trans h.signCounter
    · simp [Channel.afterSend, hsigned, h.signed]
    · simp [Channel.afterSend, haccepted, h.accepted]
  | some data =>
    rw [hsigned] at hsends haccepted
    -- A payload is signed: the log grows by it, and its counter is the length of the log before it.
    have hsign := Queues.packetSign hsends
    refine ⟨c.append data, ⟨hbounded, h.receiverBounded, ?_, ?_, h.verifyCounter, ?_, ?_, ?_⟩, rfl⟩
    · exact h.publicKey.trans (congrArg PacketSign.publicKeyBytes hsign).symm
    · rw [Cursor.append, List.length_append, List.length_singleton, UInt64.ofNat_add,
        ← h.signCounter]
      exact congrArg PacketSign.signCounter hsign
    · simp [Channel.afterSend, hsigned, h.signed, h.signCounter, signatureInput]
    · simp [Channel.afterSend, haccepted, h.accepted, Cursor.append]
    · rw [Cursor.taken_append]
      exact h.delivered

/-- The receiver's half of `Follows`, which a read keeps up to date. -/
structure ReceiverFollows (publicKey : Fixed ed25519PublicKeyLen) (log : List Bytes)
    (stream : PayloadStream C) (delivered : Bytes) (c : Cursor Bytes) : Prop where
  log : c.log = log
  publicKey : stream.peerPacketVerify.publicKey = publicKey
  verifyCounter : stream.peerPacketVerify.verifyCounter = UInt64.ofNat c.pos
  delivered : delivered ++ stream.unread = c.taken.flatten

/-- Of what was signed with fewer than 2^64 counters, the counter of the position tells the
entry there. -/
theorem eq_of_signatureInput_mem {c : Cursor Bytes} (hcount : c.log.length < 2 ^ 64) {data : Bytes}
    (h : packetSignatureInput (UInt64.ofNat c.pos) data ∈ c.log.mapIdx signatureInput) :
    ∃ hpos : c.pos < c.log.length, data = c.log[c.pos] := by
  obtain ⟨i, hi, heq⟩ := List.mem_mapIdx.mp h
  obtain ⟨hcounter, hdata⟩ := packetSignatureInput_inj.mp heq
  have hpos := c.pos_le
  -- Below 2^64 the counters are different numbers.
  obtain rfl : i = c.pos := by
    have hnat := congrArg UInt64.toNat hcounter
    rw [UInt64.toNat_ofNat', UInt64.toNat_ofNat'] at hnat
    omega
  exact ⟨hi, hdata.symm⟩

/-- A payload accepted while nothing is unread is the one that is pending first:
its counter and content were signed together, and no two payloads share a
counter. -/
theorem ReceiverFollows.receive {publicKey : Fixed ed25519PublicKeyLen} {log : List Bytes}
    {stream : PayloadStream C} {delivered frame data : Bytes} {c : Cursor Bytes} {V : Verifier}
    {now : Instant} (h : ReceiverFollows publicKey log stream delivered c)
    (hcount : log.length < 2 ^ 64)
    (unforged : V.Ed25519Unforgeable publicKey.1 (· ∈ log.mapIdx signatureInput))
    (hunread : stream.unread = []) (hcarries : stream.Carries V frame data now)
    (later : Instant) :
    ∃ c', ReceiverFollows publicKey log (stream.received data later) delivered c' := by
  obtain ⟨sig, -, -, -, hverified⟩ := hcarries
  -- What is verified is the payload under the counter of the position, so it is the entry there.
  rw [h.publicKey, h.verifyCounter] at hverified
  have hlog := h.log
  subst hlog
  obtain ⟨hpos, hdata⟩ := eq_of_signatureInput_mem hcount (unforged _ _ hverified)
  refine ⟨c.advance hpos, rfl, ?_, ?_, ?_⟩
  · rw [received_peerPacketVerify, PacketVerify.accepted_publicKey, h.publicKey]
  · rw [received_peerPacketVerify, PacketVerify.accepted_verifyCounter, h.verifyCounter]
    exact (UInt64.ofNat_add ..).symm
  · have hdelivered := h.delivered
    rw [hunread, List.append_nil] at hdelivered
    rw [unread_received hunread, Cursor.taken_advance, List.flatten_append, ← hdelivered, ← hdata,
      List.flatten_singleton]

/-- A read call advances the position past the payloads it accepts. -/
theorem Follows.afterRead {w : Channel C} {c : Cursor Bytes} (h : w.Follows c)
    (hcount : w.signed.length < 2 ^ 64) (call : ReadCall)
    (unforged : call.V.Ed25519Unforgeable w.sender.packetSign.publicKeyBytes.1 (· ∈ w.signed)) :
    ∃ c', (w.afterRead call).Follows c' ∧ c'.log = c.log := by
  rw [h.signed, Cursor.length_labelled] at hcount
  rw [h.signed] at unforged
  -- The rule of `poll_read_payload`: the reader's own moves, a payload taken in, and a copy into
  -- the caller's buffer each keep the receiver's half.
  have hrule := pollReadPayload_rule call.V (fun stream delivered => ∃ c',
      ReceiverFollows w.sender.packetSign.publicKeyBytes c.log stream delivered c')
    (fun stream delivered frameReader ⟨c', h⟩ =>
      ⟨c', h.log, h.publicKey, h.verifyCounter, h.delivered⟩)
    (fun stream delivered frame data now later ⟨c', h⟩ hunread hcarries =>
      h.receive hcount unforged hunread hcarries later)
    (fun stream next delivered out ⟨c', h⟩ hnext hunread => by
      refine ⟨c', h.log, ?_, ?_, ?_⟩
      · rw [hnext]
        exact h.publicKey
      · rw [hnext]
        exact h.verifyCounter
      · rw [List.append_assoc, ← hunread]
        exact h.delivered)
    w.receiver w.delivered ⟨c, rfl, h.publicKey, h.verifyCounter, h.delivered⟩
    h.receiverBounded.read call.clock call.remaining call.answers
  obtain ⟨⟨c', hfollows⟩, -⟩ := hrule
  have hbounded := (read_sameWrite h.receiverBounded call).2
  refine ⟨c', ⟨h.senderBounded, hbounded, hfollows.publicKey, ?_, hfollows.verifyCounter, ?_, ?_,
    hfollows.delivered⟩, hfollows.log⟩
  · -- The sender's half is about the log alone, and a read leaves it as it is.
    rw [hfollows.log]
    exact h.signCounter
  · exact h.signed.trans (by rw [Cursor.labelled, Cursor.labelled, hfollows.log])
  · exact h.accepted.trans (by rw [hfollows.log])

/-- A step never takes a signature back. -/
theorem Step.length_signed_le {w w' : Channel C} (h : Step w w') :
    w.signed.length ≤ w'.signed.length := by
  cases h with
  | send call => exact (List.length_append ▸ Nat.le_add_right _ _)
  | senderRead call | receiverSend call | read call => exact le_rfl

/-- What the sender reads does not matter. -/
theorem Follows.senderRead {w : Channel C} {c : Cursor Bytes} (h : w.Follows c) (call : ReadCall) :
    { w with sender := (w.sender.read call).stream }.Follows c := by
  obtain ⟨hsame, hbounded⟩ := read_sameWrite h.senderBounded call
  refine ⟨hbounded, h.receiverBounded, ?_, ?_, h.verifyCounter, h.signed, h.accepted, h.delivered⟩
  · exact h.publicKey.trans (congrArg PacketSign.publicKeyBytes hsame.packetSign.symm)
  · exact (congrArg PacketSign.signCounter hsame.packetSign).trans h.signCounter

/-- What the receiver sends does not matter. -/
theorem Follows.receiverSend {w : Channel C} {c : Cursor Bytes} (h : w.Follows c)
    (call : SendCall) : { w with receiver := (w.receiver.send call).stream }.Follows c := by
  have hsends := (send_spec h.receiverBounded call).1
  have hsame := hsends.sameRead
  refine ⟨h.senderBounded, hsends.bounded h.receiverBounded, ?_, h.signCounter, ?_, h.signed,
    h.accepted, ?_⟩
  · exact (congrArg PacketVerify.publicKey hsame.peerPacketVerify).trans h.publicKey
  · exact (congrArg PacketVerify.verifyCounter hsame.peerPacketVerify).trans h.verifyCounter
  · rw [unread, hsame.readBuffer, hsame.readOffset]
    exact h.delivered

/-- Every step keeps the channel on a cursor. -/
theorem Follows.step {w w' : Channel C} {c : Cursor Bytes} (h : w.Follows c) (hstep : Step w w')
    (hcount : w'.signed.length < 2 ^ 64) : ∃ c', w'.Follows c' := by
  have hle := hstep.length_signed_le
  cases hstep with
  | send call =>
    obtain ⟨c', h', -⟩ := h.afterSend call
    exact ⟨c', h'⟩
  | senderRead call => exact ⟨c, h.senderRead call⟩
  | receiverSend call => exact ⟨c, h.receiverSend call⟩
  | read call unforged =>
    obtain ⟨c', h', -⟩ := h.afterRead (hle.trans_lt hcount) call unforged
    exact ⟨c', h'⟩

/-- Along a run of fewer than 2^64 packets the channel follows a cursor. -/
theorem Follows.run {w w' : Channel C} {c : Cursor Bytes} (h : w.Follows c) (hrun : Run w w')
    (hcount : w'.signed.length < 2 ^ 64) : ∃ c', w'.Follows c' := by
  induction hrun with
  | refl => exact ⟨c, h⟩
  | tail _ hstep ih =>
    obtain ⟨c', h'⟩ := ih (hstep.length_signed_le.trans_lt hcount)
    exact h'.step hstep hcount

/-! ## Integrity -/

/-- Whatever the attacker does with the bytes of a channel, the receiver's
application has read a front of what the sender's application has written. -/
theorem delivered_prefix_accepted {senderKey : C.Ed25519KeyPair} {senderVerify : PacketVerify}
    {receiverSign : PacketSign C} {now : Instant} {w : Channel C}
    (hrun : Run (start senderKey senderVerify receiverSign now) w)
    (hcount : w.signed.length < 2 ^ 64) : w.delivered <+: w.accepted := by
  obtain ⟨c, h⟩ := (follows_start senderKey senderVerify receiverSign now).run hrun hcount
  rw [h.accepted]
  refine List.IsPrefix.trans ⟨w.receiver.unread, h.delivered⟩ c.flatten_taken_prefix

/-- The verdicts on the first packet of a sample channel. -/
def sampleVerifier : Verifier :=
  .recording [((PacketSign.sample 0).publicKeyBytes.1, packetSignatureInput 0 [7, 8])]

/-- A new channel of the sample library. -/
def sampleStart : Channel Crypto.sample := start (0 : UInt8) (.sample 1) (.sample 1) 0

/-- A read that meets the frame of the first packet. -/
def sampleRead : ReadCall :=
  ⟨sampleVerifier, fun _ => 0, 10, (payloadFrame (.sample 0) [7, 8]).map .byte⟩

/-- The channel after a write and a read that meets the frame of what was written. -/
def sampleEnd : Channel Crypto.sample :=
  (sampleStart.afterSend (.write [7, 8] [])).afterRead sampleRead

theorem delivered_prefix_accepted_sample :
    sampleEnd.delivered = [7, 8] ∧ sampleEnd.delivered <+: sampleEnd.accepted := by
  have hread : (sampleStart.receiver.read sampleRead).result = .ready (.ok [7, 8]) :=
    read_payloadFrame (Verifier.recording_ed25519.mpr List.mem_cons_self)
      (fits_of_length_le _ (by decide)) (by decide) (bounded_new _ _) rfl rfl ⟨rfl, rfl⟩
      (by decide) (by decide)
  have hdelivered : sampleEnd.delivered =
      [] ++ deliveredBy (sampleStart.receiver.read sampleRead).result := rfl
  refine ⟨by rw [hdelivered, hread]; rfl, delivered_prefix_accepted
    (.tail (.single (.send sampleStart (.write [7, 8] []))) (.read _ sampleRead ?_)) (by decide)⟩
  intro message signature hverdict
  obtain ⟨-, rfl⟩ := Prod.mk.inj (List.mem_singleton.mp (Verifier.recording_ed25519.mp hverdict))
  exact List.mem_cons_self

end Channel

end Axsh

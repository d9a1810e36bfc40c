/-
# Which writes the peer can receive

The frame reader and the decoder refuse frames above a fixed size, and nothing on
the writing side knows that size. A write that reports success is receivable
exactly when its frame, whose length depends on the content, stays within it.
-/

import Axsh.Transport.Call
import Axsh.Transport.Genuine
import Axsh.Crypto.Sample

set_option autoImplicit false

namespace Axsh.PayloadStream

open Hdlc (AsyncFrameReader)

variable {C : Crypto}

/-- A payload stream after any calls on a new one. -/
inductive Reachable : PayloadStream C → Prop
  | new (packetSign : PacketSign C) (verifier : PacketVerify) :
      Reachable (.new packetSign verifier)
  | send {stream : PayloadStream C} (h : Reachable stream) (call : SendCall) :
      Reachable (stream.send call).stream
  | read {stream : PayloadStream C} (h : Reachable stream) (call : ReadCall) :
      Reachable (stream.read call).stream

theorem Reachable.bounded {stream : PayloadStream C} (h : stream.Reachable) : stream.Bounded := by
  induction h with
  | new packetSign verifier => exact bounded_new packetSign verifier
  | send _ call ih => exact (send_spec ih call).1.bounded ih
  | read _ call ih => exact (read_sameWrite ih call).2

/-- The peer can receive `frame` as the payload `data`: its frame reader returns
it, it decodes, and a read of a peer that expects this signer's next packet, has
not been idle for too long and has nothing unread delivers `data`. -/
structure Receivable (signer : PacketSign C) (frame data : Bytes) : Prop where
  size : frame.length ≤ Hdlc.maxFrameSize
  read : ∀ rest, AsyncFrameReader.new.pollReadFrame (frame.map .byte ++ rest) =
    (.new, rest, .ready (.ok (some frame)))
  decode : ∃ wire, Hdlc.decode frame = .ok wire
  delivered : ∀ V : Verifier, V.Correct C → ∀ peer : PayloadStream C, peer.Reachable →
    peer.frameReader = .new → peer.unread = [] → Matches signer peer.peerPacketVerify →
    ∀ clock : ℕ → Instant, clock 0 - peer.peerPacketVerify.lastSuccess ≤ maxConnectionIdle →
    ∀ remaining, data.length ≤ remaining →
      (peer.read ⟨V, clock, remaining, frame.map .byte⟩).result = .ready (.ok data)

/-- The number of bytes that `escape_into` doubles. -/
def escapedCount (bytes : Bytes) : ℕ := bytes.countP fun b => b = Hdlc.flag ∨ b = Hdlc.escape

/-- The length of the frame that a payload is sent in: two flags, the type byte,
the signature and the check sequence around it, and one byte more for each one
that is escaped. The type byte is not. -/
theorem length_payloadFrame (signer : PacketSign C) (data : Bytes) :
    (payloadFrame signer data).length =
      data.length + 69 + escapedCount (signer.sign data).1 +
        escapedCount (Hdlc.u16ToLeBytes (Hdlc.frameFcs (payloadWire signer data))) := by
  have hlen := length_payloadWire signer data
  have htype : escapedCount (payloadWire signer data) = escapedCount (signer.sign data).1 :=
    List.countP_cons_of_neg (by decide)
  have hcount : escapedCount (payloadWire signer data ++
      Hdlc.u16ToLeBytes (Hdlc.frameFcs (payloadWire signer data))) =
      escapedCount (signer.sign data).1 +
        escapedCount (Hdlc.u16ToLeBytes (Hdlc.frameFcs (payloadWire signer data))) := by
    rw [escapedCount, List.countP_append, ← escapedCount, htype, ← escapedCount]
  have hbody := Hdlc.length_body (payloadWire signer data)
  change _ = _ + escapedCount _ at hbody
  rw [payloadFrame, Hdlc.length_encode, hbody, hcount, hlen]
  omega

/-- A write that reports success is receivable exactly when its payload, with what
the frame adds and what stuffing doubles, stays within the reader's limit. -/
theorem receivable_iff {self : PayloadStream C} (h : self.Reachable) {buf : Bytes}
    {answers : List WriteResult} {n : ℕ}
    (hresult : (self.pollWritePayload buf answers).result = .ready (.ok n)) (hn : 0 < n) :
    Receivable self.packetSign (self.pollWritePayload buf answers).stream.writeBuffer buf ↔
      buf.length + 69 + escapedCount (self.packetSign.sign buf).1 +
        escapedCount (Hdlc.u16ToLeBytes (Hdlc.frameFcs (payloadWire self.packetSign buf))) ≤
          Hdlc.maxFrameSize := by
  -- A write that reports success has queued one frame, of the whole buffer.
  obtain ⟨hsends, hlen⟩ := pollWritePayload_spec h.bounded.write buf answers
  obtain rfl := hlen n hresult
  have hbuf := List.length_pos_iff.mp hn
  rw [hresult, signedByWrite, if_neg (List.isEmpty_iff.not.mpr hbuf)] at hsends
  have hframe : (self.pollWritePayload buf answers).stream.writeBuffer =
      payloadFrame self.packetSign buf := by
    rw [hsends.next_eq]
    rfl
  rw [hframe, ← length_payloadFrame]
  constructor
  · intro hreceivable
    exact hreceivable.size
  · intro hfits
    exact {
      size := hfits
      read := fun rest => AsyncFrameReader.pollReadFrame_encode hfits rest
      decode := ⟨_, Hdlc.decode_encode hfits⟩
      delivered := fun V hV peer hpeer hreader hunread hmatches clock hidle remaining hremaining =>
        read_payloadFrame (vouches_of_correct hV _ _) hfits hbuf hpeer.bounded hreader
          hunread hmatches hidle hremaining }

/-- A new stream of the sample library. -/
def sampleStream : PayloadStream Crypto.sample :=
  .new (.sample 0) (.sample 1)

theorem receivable_sample : Receivable sampleStream.packetSign
    (sampleStream.pollWritePayload [7, 8] []).stream.writeBuffer [7, 8] := by
  apply (receivable_iff (n := 2) (.new _ _) rfl (by decide)).mpr
  rw [← length_payloadFrame]
  exact fits_of_length_le _ (by decide)

/-- A write into a new stream reports success for a buffer of any length. -/
theorem pollWritePayload_new (packetSign : PacketSign C) (verifier : PacketVerify) {buf : Bytes}
    (h : buf ≠ []) :
    (PayloadStream.new packetSign verifier).pollWritePayload buf [] =
      ⟨(PayloadStream.new packetSign verifier).queued buf, [], [], .ready (.ok buf.length)⟩ := by
  rw [pollWritePayload]
  simp only [pollDrainWriteBuffer, new, List.length_nil, Nat.lt_irrefl, if_false,
    List.isEmpty_iff.not.mpr h]
  rfl

/-- A write of 64 KiB reports success, and the peer must reject its frame. -/
theorem not_receivable_64KiB :
    let out := sampleStream.pollWritePayload (List.replicate 65536 0) []
    sampleStream.Reachable ∧ out.result = .ready (.ok 65536) ∧
      Hdlc.maxFrameSize < out.stream.writeBuffer.length ∧
      ∀ wire, Hdlc.decode out.stream.writeBuffer ≠ .ok wire := by
  intro out
  -- The write buffer is empty, so nothing is drained and the frame is queued at once.
  have hout : out = ⟨sampleStream.queued (List.replicate 65536 0), [], [],
      .ready (.ok (List.replicate 65536 (0 : UInt8)).length)⟩ :=
    pollWritePayload_new _ _ (List.ne_nil_of_length_pos (by rw [List.length_replicate]; omega))
  have hlen : Hdlc.maxFrameSize < out.stream.writeBuffer.length := by
    have hframe := length_payloadFrame sampleStream.packetSign (List.replicate 65536 0)
    rw [List.length_replicate] at hframe
    rw [hout]
    change Hdlc.maxFrameSize <
      (payloadFrame sampleStream.packetSign (List.replicate 65536 0)).length
    rw [hframe, Hdlc.maxFrameSize]
    omega
  refine ⟨.new _ _, by rw [hout, List.length_replicate], hlen, fun wire hwire => ?_⟩
  obtain ⟨_, hsize, -⟩ := bind_eq_ok.mp hwire
  exact absurd (ensure_eq_ok.mp hsize) hlen.not_ge

end Axsh.PayloadStream

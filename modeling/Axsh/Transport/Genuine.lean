/-
# Genuine frames

A frame that the peer's signer made, met by a verifier that holds its key and its
counter: it decodes to what was signed, its payload is accepted, and a fill that
sees the frame to its end returns the payload (`pollFillReadBuffer_rest`). Until
then a fill is pending (`pollFillReadBuffer_more`).
-/

import Axsh.Transport.Call

set_option autoImplicit false

namespace Axsh.PayloadStream

open Hdlc (AsyncFrameReader ReadResult)

variable {C : Crypto}

/-- The frame of a payload packet, signed with the signer's next counter. -/
def payloadFrame (signer : PacketSign C) (data : Bytes) : Bytes :=
  Hdlc.encode (payloadWire signer data)

theorem payloadFrame_ne_nil (signer : PacketSign C) (data : Bytes) :
    payloadFrame signer data ≠ [] := by
  rw [payloadFrame, Hdlc.encode_eq]
  exact List.cons_ne_nil _ _

/-- What is unsent once a payload is queued is its frame. -/
theorem Queues.unsent {before next : PayloadStream C} {taken data : Bytes}
    (h : Queues before next taken data) : next.unsent = payloadFrame before.packetSign data := by
  rw [h.next_eq]
  rfl

/-- The frame is short enough for the peer's reader. -/
def Fits (signer : PacketSign C) (data : Bytes) : Prop :=
  (payloadFrame signer data).length ≤ Hdlc.maxFrameSize

instance (signer : PacketSign C) (data : Bytes) : Decidable (Fits signer data) :=
  inferInstanceAs (Decidable (_ ≤ _))

/-- The verifier holds the signer's key and expects its next counter. -/
structure Matches (signer : PacketSign C) (verifier : PacketVerify) : Prop where
  publicKey : verifier.publicKey = signer.publicKeyBytes
  counter : verifier.verifyCounter = signer.signCounter

theorem payloadWire_eq (signer : PacketSign C) (data : Bytes) :
    payloadWire signer data = packetTypePayload ::
      ((C.ed25519Sign signer.keyPair (packetSignatureInput signer.signCounter data)).1 ++ data) :=
  rfl

@[simp] theorem length_payloadWire (signer : PacketSign C) (data : Bytes) :
    (payloadWire signer data).length = data.length + 65 := by
  rw [payloadWire_eq, List.length_cons, List.length_append, (C.ed25519Sign ..).2]
  change 64 + _ + 1 = _
  omega

/-- A payload of at most 32700 bytes fits, whatever its content: every byte of
the wire message and of its check sequence may have to be stuffed. -/
theorem fits_of_length_le (signer : PacketSign C) {data : Bytes} (h : data.length ≤ 32700) :
    Fits signer data := by
  have hlen := Hdlc.length_encode_le (payloadWire signer data)
  rw [length_payloadWire] at hlen
  apply hlen.trans
  rw [Hdlc.maxFrameSize]
  omega

/-- A signer's matching verifier counts on together with it. -/
theorem Matches.next {signer : PacketSign C} {verifier : PacketVerify}
    (h : Matches signer verifier) (data : Bytes) (later : Instant) :
    Matches (signer.sign data).2 (verifier.accepted later) where
  publicKey := h.publicKey
  counter := congrArg (· + 1) h.counter

/-- The signature of the signer's next packet is accepted. -/
def Vouches (V : Verifier) (signer : PacketSign C) (data : Bytes) : Prop :=
  V.ed25519 signer.publicKeyBytes.1 (packetSignatureInput signer.signCounter data)
    (C.ed25519Sign signer.keyPair (packetSignatureInput signer.signCounter data)).1 = true

theorem vouches_of_correct {V : Verifier} (hV : V.Correct C) (signer : PacketSign C)
    (data : Bytes) : Vouches V signer data := hV.ed25519 _ _

/-- A genuine frame carries its payload. -/
theorem carries_payloadFrame {V : Verifier} {stream : PayloadStream C} {signer : PacketSign C}
    (h : Matches signer stream.peerPacketVerify) {data : Bytes} (hV : Vouches V signer data)
    (hfits : Fits signer data) {now : Instant}
    (hidle : now - stream.peerPacketVerify.lastSuccess ≤ maxConnectionIdle) :
    stream.Carries V (payloadFrame signer data) data now := by
  refine ⟨_, Hdlc.decode_encode hfits, (C.ed25519Sign ..).2, hidle, ?_⟩
  rw [h.publicKey, h.counter]
  exact hV

/-- A frame carries one payload at most. -/
theorem Carries.unique {V : Verifier} {stream : PayloadStream C} {frame data data' : Bytes}
    {now : Instant} (h : stream.Carries V frame data now) (h' : stream.Carries V frame data' now) :
    data = data' := by
  obtain ⟨sig, hdecode, haccepts⟩ := h
  obtain ⟨sig', hdecode', haccepts'⟩ := h'
  have hwire := (List.cons.inj (Except.ok.inj (hdecode.symm.trans hdecode'))).2
  exact (List.append_inj hwire (haccepts.1.trans haccepts'.1.symm)).2

theorem handleFrame_of_carries {V : Verifier} (stream : PayloadStream C) {frame data : Bytes}
    {now : Instant} (h : stream.Carries V frame data now) (later : Instant) :
    stream.handleFrame V frame now later =
      (stream.received data later, if data.isEmpty then none else some (.ok true)) := by
  rcases handleFrame_eq V stream frame now later with ⟨data', h', hrun⟩ | ⟨hnone, -⟩
  · rw [hrun, h.unique h']
  · exact absurd h (hnone data)

/-- The stream with its reader somewhere in a frame. -/
def withReader (stream : PayloadStream C) (seen : Bytes) : PayloadStream C :=
  { stream with frameReader := AsyncFrameReader.holding seen }

/-- A fill that does not see a frame to its end is pending, and keeps what it saw. -/
theorem pollFillReadBuffer_more (V : Verifier) (clock : ℕ → Instant) (stream : PayloadStream C)
    {seen more later payload : Bytes} (hfits : (Hdlc.encode payload).length ≤ Hdlc.maxFrameSize)
    (hsplit : seen ++ more ++ later = Hdlc.encode payload) (hlater : later ≠ []) :
    (stream.withReader seen).pollFillReadBuffer V clock (more.map .byte) =
      { stream := stream.withReader (seen ++ more), rest := [], result := .pending } := by
  rw [Hdlc.encode_eq] at hsplit
  rw [Hdlc.length_encode] at hfits
  have hread := AsyncFrameReader.pollReadFrame_more (Hdlc.flag_notMem_body payload) hfits hsplit
    hlater []
  rw [List.append_nil] at hread
  exact pollFillReadBuffer_pending hread

/-- A fill that sees a genuine frame to its end accepts the payload. It returns,
unless the payload is a keepalive. -/
theorem pollFillReadBuffer_rest {V : Verifier} {clock : ℕ → Instant} {stream : PayloadStream C}
    {seen bytes payload data : Bytes}
    (hfits : (Hdlc.encode payload).length ≤ Hdlc.maxFrameSize)
    (hsplit : seen ++ bytes = Hdlc.encode payload) (hbytes : bytes ≠ [])
    (hcarries : stream.Carries V (Hdlc.encode payload) data (clock 0)) (rest : List ReadResult) :
    (stream.withReader seen).pollFillReadBuffer V clock (bytes.map .byte ++ rest) =
      let stream := (stream.withReader []).received data (clock 1)
      if data.isEmpty then stream.pollFillReadBuffer V (fun i => clock (i + 2)) rest
      else { stream, rest, result := .ready (.ok true) } := by
  have hencode := Hdlc.encode_eq payload
  rw [hencode] at hsplit
  rw [Hdlc.length_encode] at hfits
  have hread := AsyncFrameReader.pollReadFrame_rest (Hdlc.flag_notMem_body payload) hfits hsplit
    hbytes rest
  rw [← hencode] at hread
  have hhandle := (stream.withReader []).handleFrame_of_carries hcarries (clock 1)
  -- The frame is whole, so the reader behind it is a new one.
  have hreader : { stream.withReader seen with frameReader := .new } = stream.withReader [] := rfl
  rw [pollFillReadBuffer_frame hread, hreader, hhandle]
  by_cases hdata : data.isEmpty
  · simp only [hdata, if_true]
  · simp only [hdata]
    rfl

section Whole

variable {V : Verifier} {signer : PacketSign C} {data : Bytes} {peer : PayloadStream C}
  {clock : ℕ → Instant}

/-- A fill between two frames that meets a genuine one returns with its payload. -/
theorem fill_payloadFrame (hV : Vouches V signer data) (hfits : Fits signer data)
    (hdata : data ≠ [])
    (hreader : peer.frameReader = .new) (hmatches : Matches signer peer.peerPacketVerify)
    (hidle : clock 0 - peer.peerPacketVerify.lastSuccess ≤ maxConnectionIdle) :
    peer.pollFillReadBuffer V clock ((payloadFrame signer data).map .byte) =
      ⟨peer.received data (clock 1), [], .ready (.ok true)⟩ := by
  have hstream : peer.withReader [] = peer := by
    rw [withReader, AsyncFrameReader.holding_nil, ← hreader]
  have hcarries := carries_payloadFrame hmatches hV hfits hidle
  have hsplit : [] ++ payloadFrame signer data = Hdlc.encode (payloadWire signer data) :=
    List.nil_append _
  have hrest := pollFillReadBuffer_rest hfits hsplit (payloadFrame_ne_nil signer data) hcarries []
  rw [List.append_nil, hstream] at hrest
  exact hrest.trans (if_neg (List.isEmpty_iff.not.mpr hdata))

/-- A read that sees a whole genuine frame delivers its payload. -/
theorem read_payloadFrame (hV : Vouches V signer data) (hfits : Fits signer data)
    (hdata : data ≠ [])
    (hbounded : peer.Bounded) (hreader : peer.frameReader = .new) (hunread : peer.unread = [])
    (hmatches : Matches signer peer.peerPacketVerify)
    (hidle : clock 0 - peer.peerPacketVerify.lastSuccess ≤ maxConnectionIdle) {remaining : ℕ}
    (hremaining : data.length ≤ remaining) :
    (peer.read ⟨V, clock, remaining, (payloadFrame signer data).map .byte⟩).result =
      .ready (.ok data) := by
  -- The fill returns with the payload, and the copy takes all of it.
  have hfill := fill_payloadFrame hV hfits hdata hreader hmatches hidle
  obtain ⟨next, hcopy, -⟩ := copyOut_eq (received_bounded hbounded.read data (clock 1)) remaining
  have hpos : remaining ≠ 0 := by
    have := List.length_pos_iff.mpr hdata
    omega
  rw [read, pollReadPayload_filled hpos hbounded.read hunread hfill hcopy,
    unread_received hunread, List.take_of_length_le hremaining]

end Whole

end Axsh.PayloadStream

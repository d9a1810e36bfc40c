/-
# What a read does

A frame either carries a payload that the packet verifier accepts, or it is an
error that changes nothing (`handleFrame_eq`). Everything a fill can do to the
stream follows from that by the loop rule `pollFillReadBuffer_rule`; a read is a
fill into an empty buffer, followed by copying from its front.
-/

import Axsh.Transport

set_option autoImplicit false

namespace Axsh.PayloadStream

open Hdlc (AsyncFrameReader ReadResult)

variable {C : Crypto}

/-- The verified bytes that the application has not read yet. -/
def unread (self : PayloadStream C) : Bytes := self.readBuffer.drop self.readOffset

/-- The stream once a payload has been accepted. An empty one is a keepalive and
leaves the read buffer alone. -/
def received (self : PayloadStream C) (data : Bytes) (later : Instant) : PayloadStream C :=
  let self := { self with peerPacketVerify := self.peerPacketVerify.accepted later }
  if data.isEmpty then self else { self with readBuffer := data, readOffset := 0 }

@[simp] theorem received_peerPacketVerify (self : PayloadStream C) (data : Bytes)
    (later : Instant) :
    (self.received data later).peerPacketVerify = self.peerPacketVerify.accepted later := by
  unfold received
  split_ifs <;> rfl

@[simp] theorem received_frameReader (self : PayloadStream C) (data : Bytes)
    (later : Instant) : (self.received data later).frameReader = self.frameReader := by
  unfold received
  split_ifs <;> rfl

/-- After a fill into an empty buffer, the unread bytes are the payload. -/
theorem unread_received {self : PayloadStream C} (h : self.unread = []) (data : Bytes)
    (later : Instant) : (self.received data later).unread = data := by
  unfold received
  split_ifs with hdata
  · rw [List.isEmpty_iff.mp hdata]
    exact h
  · rfl

/-- Receiving keeps the read offset in its buffer. -/
theorem received_bounded {self : PayloadStream C} (h : self.readOffset ≤ self.readBuffer.length)
    (data : Bytes) (later : Instant) :
    (self.received data later).readOffset ≤ (self.received data later).readBuffer.length := by
  unfold received
  split_ifs
  · exact h
  · exact Nat.zero_le _

/-- A frame that holds a signed payload for the stream's packet verifier. -/
def Carries (V : Verifier) (self : PayloadStream C) (frame data : Bytes) (now : Instant) : Prop :=
  ∃ sig, Hdlc.decode frame = .ok (packetTypePayload :: (sig ++ data)) ∧
    self.peerPacketVerify.Accepts V sig data now

/-- What a frame does: it carries a payload that is accepted, or it is an error
and the stream is as it was. -/
theorem handleFrame_eq (V : Verifier) (self : PayloadStream C) (frame : Bytes)
    (now later : Instant) :
    (∃ data, self.Carries V frame data now ∧
      self.handleFrame V frame now later =
        (self.received data later, if data.isEmpty then none else some (.ok true))) ∨
    ((∀ data, ¬ self.Carries V frame data now) ∧
      ∃ e, self.handleFrame V frame now later = (self, some (.error e))) := by
  match hdecode : Hdlc.decode frame with
  | .error e =>
    refine .inr ⟨fun data hcarries => ?_, e, by simp [handleFrame, hdecode]⟩
    obtain ⟨sig, hok, -⟩ := hcarries
    rw [hdecode] at hok
    cases hok
  | .ok wire =>
    -- The parser accepts a payload exactly behind an accepted signature; any other packet is an
    -- error of the stream.
    by_cases hpayload : ∃ data, (Packet.deserialize V wire none none (some self.peerPacketVerify)
        false now later).1 = .ok (.payload data)
    · obtain ⟨data, hpacket⟩ := hpayload
      obtain ⟨sig, verifier, rfl, hverifier, haccepts⟩ :=
        Packet.isWire_of_deserialize V none none _ false now later hpacket
      obtain rfl := Option.some.inj hverifier
      refine .inl ⟨data, ⟨sig, hdecode, haccepts⟩, ?_⟩
      rcases Packet.deserialize_payload_eq V none none false now later self.peerPacketVerify
        (sig ++ data) with ⟨sig', msg, hsplit, haccepts', hrun⟩ | ⟨hrefused, -⟩
      · obtain ⟨rfl, rfl⟩ := List.append_inj hsplit (haccepts.1.trans haccepts'.1.symm)
        simp only [handleFrame, hdecode, hrun, Option.getD_some, received]
        split_ifs <;> rfl
      · exact absurd haccepts (hrefused sig data rfl)
    · have hother := not_exists.mp hpayload
      have hsnd := Packet.deserialize_snd_of_ne V none none (some self.peerPacketVerify) false now
        later hother
      refine .inr ⟨fun data hcarries => ?_, ?_⟩
      · obtain ⟨sig, hok, haccepts⟩ := hcarries
        obtain rfl := Except.ok.inj (hdecode.symm.trans hok)
        exact hother data (Packet.IsWire.deserialize_eq V none none _ false now later
          ⟨sig, _, rfl, rfl, haccepts⟩)
      · simp only [handleFrame, hdecode, hsnd, Option.getD_some]
        match hpacket : (Packet.deserialize V wire none none (some self.peerPacketVerify) false
            now later).1 with
        | .error e => exact ⟨e, rfl⟩
        | .ok (.payload data) => exact absurd hpacket (hother data)
        | .ok (.serverHello _) | .ok .requestServerPubkey | .ok (.serverPubkey _)
        | .ok (.clientHello _) | .ok (.serverComplete _) => exact ⟨_, rfl⟩

/-! ## The fill loop -/

/-- A fill whose reader has no frame yet. -/
theorem pollFillReadBuffer_pending {V : Verifier} {clock : ℕ → Instant} {self : PayloadStream C}
    {answers rest : List ReadResult} {frameReader : AsyncFrameReader}
    (h : self.frameReader.pollReadFrame answers = (frameReader, rest, .pending)) :
    self.pollFillReadBuffer V clock answers =
      { stream := { self with frameReader }, rest, result := .pending } := by
  rw [pollFillReadBuffer]
  split
  all_goals
    rename_i hread
    cases h.symm.trans hread
  rfl

/-- A fill whose reader returns a frame. -/
theorem pollFillReadBuffer_frame {V : Verifier} {clock : ℕ → Instant} {self : PayloadStream C}
    {answers rest : List ReadResult} {frameReader : AsyncFrameReader} {frame : Bytes}
    (h : self.frameReader.pollReadFrame answers = (frameReader, rest, .ready (.ok (some frame)))) :
    self.pollFillReadBuffer V clock answers =
      match { self with frameReader }.handleFrame V frame (clock 0) (clock 1) with
      | (stream, some result) => { stream, rest, result := .ready result }
      | (stream, none) => stream.pollFillReadBuffer V (fun i => clock (i + 2)) rest := by
  rw [pollFillReadBuffer]
  split
  all_goals
    rename_i hread
    cases h.symm.trans hread
  rfl

/-- The loop rule of `poll_fill_read_buffer`. `P` holds between frames and `Q`
after a payload has filled the read buffer, provided that the reader's moves and
keepalives keep `P` and that a payload leads from `P` to `Q`. -/
theorem pollFillReadBuffer_rule {V : Verifier} {P Q : PayloadStream C → Prop}
    (hreader : ∀ stream frameReader, P stream → P { stream with frameReader })
    (hkeepalive : ∀ stream frame now later, P stream → stream.Carries V frame [] now →
      P (stream.received [] later))
    (hpayload : ∀ stream frame data now later, P stream → data ≠ [] →
      stream.Carries V frame data now → Q (stream.received data later))
    (clock : ℕ → Instant) (self : PayloadStream C) (answers : List ReadResult) (h : P self) :
    (Q (self.pollFillReadBuffer V clock answers).stream ∧
      (self.pollFillReadBuffer V clock answers).result = .ready (.ok true)) ∨
    (P (self.pollFillReadBuffer V clock answers).stream ∧
      (self.pollFillReadBuffer V clock answers).result ≠ .ready (.ok true)) := by
  fun_induction pollFillReadBuffer V clock self answers with
  | case1 clock self answers frameReader rest hread =>
    exact .inr ⟨hreader _ _ h, nofun⟩
  | case2 clock self answers frameReader rest e hread =>
    exact .inr ⟨hreader _ _ h, nofun⟩
  | case3 clock self answers frameReader rest hread =>
    exact .inr ⟨hreader _ _ h, nofun⟩
  | case4 clock self answers frameReader rest frame hread stream result hframe =>
    -- The loop returns here: with a payload that is not empty, or with the error of the frame.
    have h := hreader self frameReader h
    rcases handleFrame_eq V { self with frameReader } frame (clock 0) (clock 1) with
      ⟨data, hcarries, hrun⟩ | ⟨-, e, hrun⟩
    · rw [hrun] at hframe
      by_cases hdata : data.isEmpty
      · simp [hdata] at hframe
      · simp only [hdata] at hframe
        obtain ⟨rfl, hresult⟩ := Prod.mk.inj hframe
        obtain rfl := Option.some.inj hresult
        exact .inl ⟨hpayload _ _ _ _ _ h (List.isEmpty_iff.not.mp hdata) hcarries, rfl⟩
    · obtain ⟨rfl, hresult⟩ := Prod.mk.inj (hrun.symm.trans hframe)
      obtain rfl := Option.some.inj hresult
      exact .inr ⟨h, nofun⟩
  | case5 clock self answers frameReader rest frame hread stream hframe ih =>
    -- It goes on here, so the frame was a keepalive.
    have h := hreader self frameReader h
    apply ih
    rcases handleFrame_eq V { self with frameReader } frame (clock 0) (clock 1) with
      ⟨data, hcarries, hrun⟩ | ⟨-, e, hrun⟩
    · rw [hrun] at hframe
      by_cases hdata : data.isEmpty
      · obtain rfl := List.isEmpty_iff.mp hdata
        obtain ⟨rfl, -⟩ := Prod.mk.inj hframe
        exact hkeepalive _ _ _ _ h hcarries
      · simp [hdata] at hframe
    · rw [hrun] at hframe
      cases hframe

/-- A fill keeps the read offset in its buffer. -/
theorem pollFillReadBuffer_bounded (V : Verifier) (clock : ℕ → Instant) {self : PayloadStream C}
    (h : self.readOffset ≤ self.readBuffer.length) (answers : List ReadResult) :
    (self.pollFillReadBuffer V clock answers).stream.readOffset ≤
      (self.pollFillReadBuffer V clock answers).stream.readBuffer.length := by
  have hrule := pollFillReadBuffer_rule (V := V)
    (P := fun stream => stream.readOffset ≤ stream.readBuffer.length)
    (Q := fun stream => stream.readOffset ≤ stream.readBuffer.length)
    (fun stream frameReader hP => hP)
    (fun stream frame now later hP _ => received_bounded hP [] later)
    (fun stream frame data now later hP _ _ => received_bounded hP data later)
    clock self answers h
  rcases hrule with ⟨hle, -⟩ | ⟨hle, -⟩
  · exact hle
  · exact hle

/-! ## Copying out -/

/-- What a copy does: it moves bytes from the front of the unread ones to the
caller, as many as there is room for. -/
theorem copyOut_eq {self : PayloadStream C} (h : self.readOffset ≤ self.readBuffer.length)
    (remaining : ℕ) :
    ∃ stream, self.copyOut remaining = .ok (stream, self.unread.take remaining) ∧
      stream = { self with readBuffer := stream.readBuffer, readOffset := stream.readOffset } ∧
      stream.readOffset ≤ stream.readBuffer.length ∧
      stream.unread = self.unread.drop remaining := by
  have hlen : self.unread.length = self.readBuffer.length - self.readOffset := List.length_drop
  have hstop : self.readOffset + min (self.readBuffer.length - self.readOffset) remaining ≤
      self.readBuffer.length := by omega
  have hslice : slice self.readBuffer self.readOffset
      (self.readOffset + min (self.readBuffer.length - self.readOffset) remaining) =
      .ok (self.unread.take remaining) := by
    rw [slice_eq (by omega) hstop, List.drop_take, Nat.add_sub_cancel_left, ← hlen]
    exact congrArg Except.ok (List.take_eq_take_iff.mpr (by simp only [unread]; omega))
  have hrest : self.readBuffer.drop
      (self.readOffset + min (self.readBuffer.length - self.readOffset) remaining) =
      self.unread.drop remaining := by
    rw [← List.drop_drop, ← hlen]
    exact List.drop_eq_drop_iff.mpr (by simp only [unread]; omega)
  -- A buffer that has been read to its end is cleared; that does not change what is unread.
  by_cases hend : self.readOffset + min (self.readBuffer.length - self.readOffset) remaining =
      self.readBuffer.length
  · refine ⟨{ self with readBuffer := [], readOffset := 0 }, ?_, rfl, le_rfl, ?_⟩
    · simp only [copyOut, usizeSub_eq h, ok_bind, hslice]
      rw [if_pos hend]
      rfl
    · rw [← hrest, hend, List.drop_length]
      rfl
  · refine ⟨{ self with
      readOffset :=
        self.readOffset + min (self.readBuffer.length - self.readOffset) remaining }, ?_, rfl,
      hstop, hrest⟩
    simp only [copyOut, usizeSub_eq h, ok_bind, hslice]
    rw [if_neg hend]
    rfl

/-! ## The whole read -/

theorem readOffset_eq_iff {self : PayloadStream C}
    (h : self.readOffset ≤ self.readBuffer.length) :
    self.readOffset = self.readBuffer.length ↔ self.unread = [] := by
  rw [unread, List.drop_eq_nil_iff]
  exact ⟨fun heq => heq.ge, fun hge => h.antisymm hge⟩

section Read

variable {V : Verifier} {clock : ℕ → Instant} {self stream : PayloadStream C} {remaining : ℕ}
  {answers rest : List ReadResult}

/-- A read with nothing unread is pending when its fill is. -/
theorem pollReadPayload_pending (hremaining : remaining ≠ 0)
    (hbounded : self.readOffset ≤ self.readBuffer.length) (hunread : self.unread = [])
    (hfill : self.pollFillReadBuffer V clock answers = ⟨stream, rest, .pending⟩) :
    self.pollReadPayload V clock remaining answers = ⟨stream, rest, .pending⟩ := by
  rw [pollReadPayload, if_neg hremaining, if_pos ((readOffset_eq_iff hbounded).mpr hunread), hfill]

/-- A read with nothing unread copies from what its fill has put there. -/
theorem pollReadPayload_filled (hremaining : remaining ≠ 0)
    (hbounded : self.readOffset ≤ self.readBuffer.length) (hunread : self.unread = [])
    (hfill : self.pollFillReadBuffer V clock answers = ⟨stream, rest, .ready (.ok true)⟩)
    {next : PayloadStream C} {out : Bytes} (hcopy : stream.copyOut remaining = .ok (next, out)) :
    self.pollReadPayload V clock remaining answers = ⟨next, rest, .ready (.ok out)⟩ := by
  rw [pollReadPayload, if_neg hremaining, if_pos ((readOffset_eq_iff hbounded).mpr hunread), hfill]
  simp only [hcopy]

/-- A read with something unread copies from that and leaves the underlying stream alone. -/
theorem pollReadPayload_unread (hremaining : remaining ≠ 0)
    (hbounded : self.readOffset ≤ self.readBuffer.length) (hunread : self.unread ≠ [])
    {next : PayloadStream C} {out : Bytes} (hcopy : self.copyOut remaining = .ok (next, out)) :
    self.pollReadPayload V clock remaining answers = ⟨next, answers, .ready (.ok out)⟩ := by
  have hoffset := (readOffset_eq_iff hbounded).not.mpr hunread
  rw [pollReadPayload, if_neg hremaining, if_neg hoffset]
  simp only [hcopy]

end Read

/-- The bytes that a read call has handed to the application. -/
def deliveredBy : Poll (Res Bytes) → Bytes
  | .ready (.ok out) => out
  | _ => []

/-- The rule of `poll_read_payload`: an invariant of the stream and the bytes
delivered so far is kept by a read if it is kept by the reader's moves, by
accepting a payload when nothing is unread, and by moving bytes from the front of
the unread ones to the delivered ones. -/
theorem pollReadPayload_rule (V : Verifier) (Inv : PayloadStream C → Bytes → Prop)
    (hreader : ∀ stream delivered frameReader, Inv stream delivered →
      Inv { stream with frameReader } delivered)
    (hreceive : ∀ stream delivered frame data now later, Inv stream delivered →
      stream.unread = [] → stream.Carries V frame data now →
      Inv (stream.received data later) delivered)
    (hcopy : ∀ (stream next : PayloadStream C) delivered out, Inv stream delivered →
      next = { stream with readBuffer := next.readBuffer, readOffset := next.readOffset } →
      stream.unread = out ++ next.unread → Inv next (delivered ++ out))
    (self : PayloadStream C) (delivered : Bytes) (h : Inv self delivered)
    (hbounded : self.readOffset ≤ self.readBuffer.length)
    (clock : ℕ → Instant) (remaining : ℕ) (answers : List ReadResult) :
    Inv (self.pollReadPayload V clock remaining answers).stream
        (delivered ++ deliveredBy (self.pollReadPayload V clock remaining answers).result) ∧
      (self.pollReadPayload V clock remaining answers).stream.readOffset ≤
        (self.pollReadPayload V clock remaining answers).stream.readBuffer.length := by
  -- From any state with the invariant, the copy is moving bytes to the delivered ones.
  have hfilled : ∀ stream, Inv stream delivered →
      stream.readOffset ≤ stream.readBuffer.length →
      ∃ next out, stream.copyOut remaining = .ok (next, out) ∧ Inv next (delivered ++ out) ∧
        next.readOffset ≤ next.readBuffer.length := by
    intro stream hinv hstream
    obtain ⟨next, hrun, hnext, hle, hunread⟩ := copyOut_eq hstream remaining
    refine ⟨next, _, hrun, hcopy _ _ _ _ hinv hnext ?_, hle⟩
    rw [hunread, List.take_append_drop]
  have hkeep : ∀ {stream}, Inv stream delivered → Inv stream (delivered ++ []) :=
    fun hinv => by rwa [List.append_nil]
  by_cases hremaining : remaining = 0
  · rw [pollReadPayload, if_pos hremaining]
    exact ⟨hkeep h, hbounded⟩
  rw [pollReadPayload, if_neg hremaining]
  by_cases hempty : self.readOffset = self.readBuffer.length
  · simp only [hempty, if_true]
    -- Between frames nothing is unread, so a payload may overwrite the read buffer.
    have hfill := pollFillReadBuffer_rule (V := V)
      (P := fun stream => Inv stream delivered ∧ stream.readOffset ≤ stream.readBuffer.length ∧
        stream.unread = [])
      (Q := fun stream => Inv stream delivered ∧ stream.readOffset ≤ stream.readBuffer.length)
      (fun stream frameReader hP => ⟨hreader _ _ _ hP.1, hP.2⟩)
      (fun stream frame now later hP hcarries =>
        ⟨hreceive _ _ _ _ _ _ hP.1 hP.2.2 hcarries, hP.2⟩)
      (fun stream frame data now later hP hdata hcarries =>
        ⟨hreceive _ _ _ _ _ _ hP.1 hP.2.2 hcarries, received_bounded hP.2.1 data later⟩)
      clock self answers ⟨h, hbounded, (readOffset_eq_iff hbounded).mp hempty⟩
    rcases hfill with ⟨⟨hinv, hle⟩, hresult⟩ | ⟨⟨hinv, hle, -⟩, hresult⟩
    · obtain ⟨next, out, hrun, hnext⟩ := hfilled _ hinv hle
      simp only [hresult, hrun]
      exact hnext
    · match hout : (self.pollFillReadBuffer V clock answers).result with
      | .pending => exact ⟨hkeep hinv, hle⟩
      | .ready (.error e) => exact ⟨hkeep hinv, hle⟩
      | .ready (.ok false) => exact ⟨hkeep hinv, hle⟩
      | .ready (.ok true) => exact absurd hout hresult
  · simp only [hempty, if_false]
    obtain ⟨next, out, hrun, hnext⟩ := hfilled _ h hbounded
    rw [hrun]
    exact hnext

end Axsh.PayloadStream

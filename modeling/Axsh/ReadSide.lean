/-
# The read side

Any reads of the receiving application, over an underlying stream that answers them in any
way. The bytes delivered and the bytes unread are together the payloads that were verified
(`Delivers`). A read that returns no byte has met the end of the stream outside a frame,
with everything delivered, and conversely; inside a frame the end of the stream is an error.

The payloads that a call verifies are logged beside it (`readVerified`): those for which
`deserialize` returned a `Payload`.
-/

import Axsh.Crypto.Sample
import Axsh.Transport.Call

set_option autoImplicit false

namespace Axsh

open Hdlc (AsyncFrameReader ReadResult)

namespace PayloadStream

variable {C : Crypto}

/-! ## The payloads that are verified -/

/-- The payload that `deserialize` returns for a frame. -/
def verifiedIn (V : Verifier) (self : PayloadStream C) (frame : Bytes) (now later : Instant) :
    Option Bytes :=
  match Hdlc.decode frame with
  | .error _ => none
  | .ok wire =>
    match (Packet.deserialize V wire none none (some self.peerPacketVerify) false now later).1 with
    | .ok (.payload data) => some data
    | _ => none

/-- The payloads that a fill verifies. -/
def fillVerified (V : Verifier) (clock : ℕ → Instant) (self : PayloadStream C)
    (answers : List ReadResult) : List Bytes :=
  match _h : self.frameReader.pollReadFrame answers with
  | (frameReader, rest, .ready (.ok (some frame))) =>
    let verified := { self with frameReader }.verifiedIn V frame (clock 0) (clock 1)
    match { self with frameReader }.handleFrame V frame (clock 0) (clock 1) with
    | (_, some _) => verified.toList
    | (stream, none) =>
      verified.toList ++ stream.fillVerified V (fun i => clock (i + 2)) rest
  | _ => []
termination_by answers.length
decreasing_by exact AsyncFrameReader.length_rest_lt _h

/-- The payloads that a read verifies. -/
def readVerified (self : PayloadStream C) (call : ReadCall) : List Bytes :=
  if call.remaining = 0 then []
  else if self.readOffset = self.readBuffer.length then
    self.fillVerified call.V call.clock call.answers
  else []

/-- A frame is verified to carry a payload, which is received, or it is an error. -/
theorem verifiedIn_cases (V : Verifier) (self : PayloadStream C) (frame : Bytes)
    (now later : Instant) :
    (∃ data, self.verifiedIn V frame now later = some data ∧
      self.handleFrame V frame now later =
        (self.received data later, if data.isEmpty then none else some (.ok true))) ∨
    (self.verifiedIn V frame now later = none ∧
      ∃ e, self.handleFrame V frame now later = (self, some (.error e))) := by
  rcases handleFrame_eq V self frame now later with
      ⟨data, ⟨sig, hdecode, haccepts⟩, hrun⟩ | ⟨hnone, hrun⟩
  · refine .inl ⟨data, ?_, hrun⟩
    -- What the stream accepts is a payload of the parser, and the other way round.
    have hwire : Packet.IsWire V none none (some self.peerPacketVerify) false now
        (packetTypePayload :: (sig ++ data)) (.payload data) := ⟨sig, _, rfl, rfl, haccepts⟩
    have hpacket := hwire.deserialize_eq V none none _ false now later
    simp only [verifiedIn, hdecode, hpacket]
  · refine .inr ⟨?_, hrun⟩
    match hdecode : Hdlc.decode frame with
    | .error e => simp only [verifiedIn, hdecode]
    | .ok wire =>
      match hpacket : (Packet.deserialize V wire none none (some self.peerPacketVerify) false now
          later).1 with
      | .ok (.payload data) =>
        obtain ⟨sig, verifier, rfl, hverifier, haccepts⟩ :=
          Packet.isWire_of_deserialize V none none _ false now later hpacket
        obtain rfl := Option.some.inj hverifier
        exact absurd ⟨sig, hdecode, haccepts⟩ (hnone data)
      | .error e | .ok (.serverHello _) | .ok .requestServerPubkey | .ok (.serverPubkey _)
      | .ok (.clientHello _) | .ok (.serverComplete _) => simp only [verifiedIn, hdecode, hpacket]

/-- A fill goes on behind a keepalive only. -/
theorem verifiedIn_of_none {V : Verifier} {self stream : PayloadStream C} {frame : Bytes}
    {now later : Instant} (h : self.handleFrame V frame now later = (stream, none)) :
    self.verifiedIn V frame now later = some [] ∧ stream = self.received [] later := by
  rcases self.verifiedIn_cases V frame now later with ⟨data, hdata, hrun⟩ | ⟨-, e, hrun⟩
  · rw [hrun] at h
    by_cases hkeepalive : data.isEmpty
    · obtain rfl := List.isEmpty_iff.mp hkeepalive
      exact ⟨hdata, (Prod.mk.inj h).1.symm⟩
    · simp [hkeepalive] at h
  · rw [hrun] at h
    cases h

/-- It ends with a payload that has bytes, or with an error. -/
theorem verifiedIn_of_some {V : Verifier} {self stream : PayloadStream C} {frame : Bytes}
    {now later : Instant} {result : Res Bool}
    (h : self.handleFrame V frame now later = (stream, some result)) :
    (∃ data, data ≠ [] ∧ self.verifiedIn V frame now later = some data ∧
      stream = self.received data later ∧ result = .ok true) ∨
    (self.verifiedIn V frame now later = none ∧ stream = self ∧ ∃ e, result = .error e) := by
  rcases self.verifiedIn_cases V frame now later with ⟨data, hdata, hrun⟩ | ⟨hnone, e, hrun⟩
  · rw [hrun] at h
    by_cases hkeepalive : data.isEmpty
    · simp [hkeepalive] at h
    · simp only [hkeepalive] at h
      obtain ⟨rfl, hresult⟩ := Prod.mk.inj h
      exact .inl ⟨data, fun hnil => hkeepalive (List.isEmpty_iff.mpr hnil), hdata, rfl,
        (Option.some.inj hresult).symm⟩
  · obtain ⟨rfl, hresult⟩ := Prod.mk.inj (hrun.symm.trans h)
    exact .inr ⟨hnone, rfl, e, (Option.some.inj hresult).symm⟩

theorem fillVerified_frame {V : Verifier} {clock : ℕ → Instant} {self : PayloadStream C}
    {answers rest : List ReadResult} {frameReader : AsyncFrameReader} {frame : Bytes}
    (h : self.frameReader.pollReadFrame answers = (frameReader, rest, .ready (.ok (some frame)))) :
    self.fillVerified V clock answers =
      match { self with frameReader }.handleFrame V frame (clock 0) (clock 1) with
      | (_, some _) => ({ self with frameReader }.verifiedIn V frame (clock 0) (clock 1)).toList
      | (stream, none) =>
        ({ self with frameReader }.verifiedIn V frame (clock 0) (clock 1)).toList ++
          stream.fillVerified V (fun i => clock (i + 2)) rest := by
  rw [fillVerified]
  split
  · rename_i hread
    cases h.symm.trans hread
    rfl
  · rename_i hread
    exact absurd h (hread _ _ _)

theorem fillVerified_nil {V : Verifier} {clock : ℕ → Instant} {self : PayloadStream C}
    {answers rest : List ReadResult} {frameReader : AsyncFrameReader}
    {result : Poll (Res (Option Bytes))}
    (h : self.frameReader.pollReadFrame answers = (frameReader, rest, result))
    (hresult : ∀ frame, result ≠ .ready (.ok (some frame))) :
    self.fillVerified V clock answers = [] := by
  rw [fillVerified]
  split
  · rename_i hread
    have hpair := Prod.mk.inj (Prod.mk.inj (h.symm.trans hread)).2
    exact absurd hpair.2 (hresult _)
  · rfl

/-! ## A fill -/

/-- A call ended at the end of the underlying stream, with the frame reader inside a frame
or outside. -/
def EndsAt {α : Type} (inFrame : Bool) (answers : List ReadResult) (out : Fetched C α) : Prop :=
  (∃ front, answers = front ++ .eof :: out.rest) ∧ out.stream.frameReader.inFrame = inFrame

/-- What a fill into an empty buffer does: the unread bytes are what it verified. It returns
`true` exactly with unread bytes, and at the end of the underlying stream, and only there,
`false` or the error of an end inside a frame. -/
structure Fills (verified : List Bytes) (answers : List ReadResult) (out : Fetched C Bool) :
    Prop where
  unread : out.stream.unread = verified.flatten
  used : ∃ used, answers = used ++ out.rest
  full : out.result = .ready (.ok true) ↔ out.stream.unread ≠ []
  ends : ∀ inFrame, EndsAt inFrame answers out →
    out.result = .ready (if inFrame then .error Hdlc.eofInFrame else .ok false)
  eof : out.result = .ready (.ok false) → EndsAt false answers out

/-- A byte is not the end of the stream. -/
theorem byte_ne_eof {answers rest front front' : List ReadResult} {byte : UInt8}
    (h : answers = front ++ .byte byte :: rest) (h' : answers = front' ++ .eof :: rest) :
      False := by
  have hlast := (List.append_inj' (h.symm.trans h') rfl).2
  cases hlast

/-- The rest of a fill, behind a keepalive. -/
theorem Fills.keepalive {verified : List Bytes} {answers rest front : List ReadResult}
    {byte : UInt8} {out : Fetched C Bool} (h : Fills verified rest out)
    (hread : answers = front ++ .byte byte :: rest) : Fills ([] :: verified) answers out := by
  obtain ⟨used, hused⟩ := h.used
  refine ⟨h.unread, ⟨front ++ .byte byte :: used, ?_⟩, h.full, ?_, ?_⟩
  · rw [hread, hused, List.append_assoc, List.cons_append]
  · rintro inFrame ⟨⟨front', hfront⟩, hin⟩
    refine h.ends inFrame ⟨?_, hin⟩
    -- The end is not the byte that ended the frame, so it is one of the answers behind it.
    rw [hread, hused] at hfront
    rcases List.eq_nil_or_concat used with rfl | ⟨init, last, rfl⟩
    · exact (byte_ne_eof rfl hfront).elim
    · have hsplit :
          (front ++ .byte byte :: init) ++ last :: out.rest = front' ++ .eof :: out.rest := by
        rw [← hfront, List.concat_eq_append]
        simp
      obtain ⟨rfl, -⟩ := List.cons.inj (List.append_inj' hsplit rfl).2
      exact ⟨init, by rw [hused, List.concat_eq_append, List.append_assoc]; rfl⟩
  · intro hresult
    obtain ⟨⟨front', hfront⟩, hin⟩ := h.eof hresult
    refine ⟨⟨front ++ .byte byte :: front', ?_⟩, hin⟩
    rw [hread, hfront, List.append_assoc, List.cons_append]

theorem fills (V : Verifier) (clock : ℕ → Instant) (self : PayloadStream C)
    (answers : List ReadResult) (hunread : self.unread = []) :
    Fills (self.fillVerified V clock answers)
      answers (self.pollFillReadBuffer V clock answers) := by
  fun_induction pollFillReadBuffer V clock self answers with
  | case1 clock self answers frameReader rest hread =>
    obtain ⟨hused, hends, -, -⟩ := AsyncFrameReader.pollReadFrame_ends hread
    rw [fillVerified_nil hread (by simp)]
    refine ⟨hunread, hused, iff_of_false (by simp) (not_not.mpr hunread), ?_, by simp⟩
    -- A pending reader has met no end.
    rintro inFrame ⟨⟨front, hfront⟩, -⟩
    cases hends front hfront
  | case2 clock self answers frameReader rest e hread =>
    obtain ⟨hused, hends, -, -⟩ := AsyncFrameReader.pollReadFrame_ends hread
    rw [fillVerified_nil hread (by simp)]
    refine ⟨hunread, hused, iff_of_false (by simp) (not_not.mpr hunread), ?_, by simp⟩
    rintro inFrame ⟨⟨front, hfront⟩, rfl⟩
    -- At the end of the stream the reader's own error is the one of an end inside a frame.
    have hresult := hends front hfront
    split_ifs at hresult with hin
    · obtain rfl := Except.error.inj (Poll.ready.inj hresult)
      rw [if_pos hin]
    · cases hresult
  | case3 clock self answers frameReader rest hread =>
    obtain ⟨hused, -, heof, -⟩ := AsyncFrameReader.pollReadFrame_ends hread
    obtain ⟨hin, hfront⟩ := heof rfl
    rw [fillVerified_nil hread (by simp)]
    refine ⟨hunread, hused, iff_of_false (by simp) (not_not.mpr hunread), ?_, fun _ =>
      ⟨hfront, hin⟩⟩
    rintro inFrame ⟨-, rfl⟩
    rw [if_neg (Bool.eq_false_iff.mp hin)]
  | case4 clock self answers frameReader rest frame hread stream result hframe =>
    obtain ⟨hused, -, -, hbyte⟩ := AsyncFrameReader.pollReadFrame_ends hread
    obtain ⟨front, byte, hfront⟩ := hbyte frame rfl
    -- The frame ended at a byte, so this fill has met no end.
    have hnoend : ¬ ∃ front', answers = front' ++ .eof :: rest := by
      rintro ⟨front', hfront'⟩
      exact byte_ne_eof hfront hfront'
    rw [fillVerified_frame hread, hframe]
    have hempty : { self with frameReader }.unread = [] := hunread
    rcases verifiedIn_of_some hframe with ⟨data, hbytes, hdata, rfl, rfl⟩ | ⟨hnone, rfl, e, rfl⟩
    · have hreceived := unread_received hempty data (clock 1)
      simp only [hdata, Option.toList_some]
      refine ⟨hreceived.trans List.flatten_singleton.symm, hused, iff_of_true rfl ?_, ?_, by simp⟩
      · exact hreceived.symm ▸ hbytes
      · rintro inFrame ⟨hend, -⟩
        exact absurd hend hnoend
    · simp only [hnone, Option.toList_none]
      refine ⟨hempty, hused, iff_of_false (by simp) (not_not.mpr hempty), ?_, by simp⟩
      rintro inFrame ⟨hend, -⟩
      exact absurd hend hnoend
  | case5 clock self answers frameReader rest frame hread stream hframe ih =>
    obtain ⟨-, -, -, hbyte⟩ := AsyncFrameReader.pollReadFrame_ends hread
    obtain ⟨front, byte, hfront⟩ := hbyte frame rfl
    rw [fillVerified_frame hread, hframe]
    have hempty : { self with frameReader }.unread = [] := hunread
    obtain ⟨hdata, rfl⟩ := verifiedIn_of_none hframe
    simp only [hdata, Option.toList_some]
    -- An empty payload leaves nothing to read, and the loop goes on.
    exact (ih hempty).keepalive hfront

/-! ## A read -/

/-- A call in which nothing of the answers is used has met no end. -/
theorem not_endsAt_of_rest {α : Type} {inFrame : Bool} {answers : List ReadResult}
    {out : Fetched C α} (h : out.rest = answers) : ¬ EndsAt inFrame answers out := by
  rintro ⟨⟨front, hfront⟩, -⟩
  have hlen := congrArg List.length hfront
  rw [h, List.length_append, List.length_cons] at hlen
  omega

/-- What a read into a buffer with room does: the bytes that were unread and those that it
verifies are what it delivers and what is unread behind it. At the end of the underlying
stream it returns no byte or the error of an end inside a frame, and only at an end outside a
frame it returns no byte, with nothing unread. -/
structure Reads (unread : Bytes) (verified : List Bytes) (answers : List ReadResult)
    (out : Fetched C Bytes) : Prop where
  bounded : out.stream.readOffset ≤ out.stream.readBuffer.length
  bytes : unread ++ verified.flatten = deliveredBy out.result ++ out.stream.unread
  ends : ∀ inFrame, EndsAt inFrame answers out →
    out.result = .ready (if inFrame then .error Hdlc.eofInFrame else .ok [])
  eof : out.result = .ready (.ok []) → EndsAt false answers out ∧ out.stream.unread = []

/-- A read that copies from a buffer with unread bytes. -/
theorem reads_copyOut {filled next : PayloadStream C} {out : Bytes} {remaining : ℕ}
    {verified : List Bytes} {unread : Bytes} {answers rest : List ReadResult}
    (hbounded : filled.readOffset ≤ filled.readBuffer.length) (hremaining : remaining ≠ 0)
    (hcopy : filled.copyOut remaining = .ok (next, out)) (hfilled : filled.unread ≠ [])
    (hbytes : unread ++ verified.flatten = filled.unread)
    (hnoend : ∀ inFrame, ¬ EndsAt (C := C) (α := Bytes) inFrame answers
      ⟨filled, rest, .ready (.ok out)⟩) :
    Reads unread verified answers ⟨next, rest, .ready (.ok out)⟩ := by
  obtain ⟨next', hrun, hnext, hle, hrest⟩ := copyOut_eq hbounded remaining
  obtain ⟨rfl, rfl⟩ := Prod.mk.inj (Except.ok.inj (hrun.symm.trans hcopy))
  -- There is room and there are unread bytes, so the copy is not empty.
  have hout : filled.unread.take remaining ≠ [] := by
    intro hnil
    rcases List.take_eq_nil_iff.mp hnil with hzero | hempty
    · exact hremaining hzero
    · exact hfilled hempty
  refine ⟨hle, ?_, ?_, ?_⟩
  · rw [hbytes]
    change filled.unread = filled.unread.take remaining ++ next'.unread
    rw [hrest, List.take_append_drop]
  · rintro inFrame ⟨hend, hin⟩
    have hreader : next'.frameReader = filled.frameReader := by rw [hnext]
    exact absurd ⟨hend, (congrArg AsyncFrameReader.inFrame hreader).symm.trans hin⟩
      (hnoend inFrame)
  · intro hresult
    exact absurd (Except.ok.inj (Poll.ready.inj hresult)) hout

/-- A read whose fill returns no bytes. -/
theorem reads_of_fill {filled : Fetched C Bool} {verified : List Bytes} {answers : List ReadResult}
    {result : Poll (Res Bytes)} (h : Fills verified answers filled)
    (hbounded : filled.stream.readOffset ≤ filled.stream.readBuffer.length)
    (hnone : deliveredBy result = [])
    (hends : ∀ inFrame : Bool,
      filled.result = .ready (if inFrame then .error Hdlc.eofInFrame else .ok false) →
      result = .ready (if inFrame then .error Hdlc.eofInFrame else .ok []))
    (heof : result = .ready (.ok []) → filled.result = .ready (.ok false)) :
    Reads [] verified answers ⟨filled.stream, filled.rest, result⟩ := by
  refine ⟨hbounded, ?_, fun inFrame hend => hends inFrame (h.ends inFrame hend), fun hresult => ?_⟩
  · rw [List.nil_append, ← h.unread]
    change _ = deliveredBy result ++ _
    rw [hnone, List.nil_append]
  · have hfilled := heof hresult
    refine ⟨h.eof hfilled, not_not.mp (h.full.not.mp ?_)⟩
    simp [hfilled]

theorem reads {self : PayloadStream C} (hbounded : self.readOffset ≤ self.readBuffer.length)
    (call : ReadCall) (hremaining : call.remaining ≠ 0) :
    Reads self.unread (self.readVerified call) call.answers (self.read call) := by
  by_cases hunread : self.unread = []
  · have hoffset := (readOffset_eq_iff hbounded).mpr hunread
    have hverified : self.readVerified call = self.fillVerified call.V call.clock call.answers := by
      rw [readVerified, if_neg hremaining, if_pos hoffset]
    have hfilledBounded := pollFillReadBuffer_bounded call.V call.clock hbounded call.answers
    have hfill := fills call.V call.clock self call.answers hunread
    -- With nothing unread the read fills the buffer first; what the fill returned decides.
    rw [hverified, hunread, read, pollReadPayload, if_neg hremaining, if_pos hoffset]
    cases hresult : (self.pollFillReadBuffer call.V call.clock call.answers).result
      using Poll.resultCases with
    | pending =>
      simp only [hresult]
      refine reads_of_fill hfill hfilledBounded rfl (fun inFrame hends => ?_) (by simp)
      rw [hresult] at hends
      cases hends
    | error e =>
      simp only [hresult]
      refine reads_of_fill hfill hfilledBounded rfl (fun inFrame hends => ?_) (by simp)
      rw [hresult] at hends
      cases inFrame with
      | true => exact congrArg (Poll.ready ∘ Except.error) (Except.error.inj (Poll.ready.inj hends))
      | false => cases hends
    | ok filled =>
      cases filled with
      | false =>
        simp only [hresult]
        refine reads_of_fill hfill hfilledBounded rfl (fun inFrame hends => ?_) fun _ => hresult
        rw [hresult] at hends
        cases inFrame with
        | true => cases hends
        | false => rfl
      | true =>
        obtain ⟨next, hcopy, -, -, -⟩ := copyOut_eq hfilledBounded call.remaining
        simp only [hresult, hcopy]
        refine reads_copyOut hfilledBounded hremaining hcopy (hfill.full.mp hresult) ?_ ?_
        · rw [List.nil_append, hfill.unread]
        · intro inFrame hend
          have hends := hfill.ends inFrame hend
          rw [hresult] at hends
          cases inFrame <;> cases hends
  · have hoffset := (readOffset_eq_iff hbounded).not.mpr hunread
    obtain ⟨next, hcopy, -, -, -⟩ := copyOut_eq hbounded call.remaining
    have hverified : self.readVerified call = [] := by
      rw [readVerified, if_neg hremaining, if_neg hoffset]
    rw [hverified, read, pollReadPayload_unread hremaining hbounded hunread hcopy]
    exact reads_copyOut hbounded hremaining hcopy hunread (List.append_nil _)
      fun _ => not_endsAt_of_rest rfl

end PayloadStream

open PayloadStream

/-! ## Any reads -/

/-- A payload stream, with what its application has seen of its read side and the payloads
that were verified. -/
structure Receiver (C : Crypto) where
  stream : PayloadStream C
  delivered : Bytes
  verified : List Bytes

namespace Receiver

variable {C : Crypto}

/-- A new stream. -/
def start (packetSign : PacketSign C) (peerPacketVerify : PacketVerify) : Receiver C where
  stream := PayloadStream.new packetSign peerPacketVerify
  delivered := []
  verified := []

/-- The receiver after a read. -/
def after (w : Receiver C) (call : ReadCall) : Receiver C where
  stream := (w.stream.read call).stream
  delivered := w.delivered ++ deliveredBy (w.stream.read call).result
  verified := w.verified ++ w.stream.readVerified call

/-- The receiver after some reads. -/
def run (w : Receiver C) (calls : List ReadCall) : Receiver C := calls.foldl after w

/-- The bytes delivered and the bytes unread are the payloads verified. -/
structure Delivers (w : Receiver C) : Prop where
  bounded : w.stream.readOffset ≤ w.stream.readBuffer.length
  bytes : w.delivered ++ w.stream.unread = w.verified.flatten

theorem Delivers.after {w : Receiver C} (h : w.Delivers) (call : ReadCall) :
    (w.after call).Delivers := by
  by_cases hremaining : call.remaining = 0
  · -- Without room a read does nothing.
    have hread : w.stream.read call = ⟨w.stream, call.answers, .ready (.ok [])⟩ := by
      rw [PayloadStream.read, pollReadPayload, if_pos hremaining]
    have hverified : w.stream.readVerified call = [] := if_pos hremaining
    rw [Receiver.after, hread, hverified]
    refine ⟨h.bounded, ?_⟩
    change (w.delivered ++ []) ++ w.stream.unread = _
    rw [List.append_nil, List.append_nil, h.bytes]
  · have hreads := reads h.bounded call hremaining
    refine ⟨hreads.bounded, ?_⟩
    change (w.delivered ++ _) ++ (w.stream.read call).stream.unread =
      (w.verified ++ w.stream.readVerified call).flatten
    rw [List.append_assoc, ← hreads.bytes, ← List.append_assoc, h.bytes, List.flatten_append]

theorem Delivers.run {w : Receiver C} (h : w.Delivers) (calls : List ReadCall) :
    (w.run calls).Delivers := by
  induction calls generalizing w with
  | nil => exact h
  | cons call calls ih => exact ih (h.after call)

/-- After any reads over any answers of the underlying stream, the offset is in its buffer and
the bytes delivered and the bytes unread are the payloads verified. A further read with room
returns no byte exactly if it ends at the end of the underlying stream outside a frame with
everything delivered, and inside a frame the end is an error. -/
theorem zero_read_iff_eof (packetSign : PacketSign C) (peerPacketVerify : PacketVerify)
    (calls : List ReadCall) :
    let w := (Receiver.start packetSign peerPacketVerify).run calls
    w.stream.readOffset ≤ w.stream.readBuffer.length ∧
      w.delivered ++ w.stream.readBuffer.drop w.stream.readOffset = w.verified.flatten ∧
      ∀ call, call.remaining ≠ 0 →
        ((w.stream.read call).result = .ready (.ok []) ↔
          (w.after call).delivered = (w.after call).verified.flatten ∧
            EndsAt false call.answers (w.stream.read call)) ∧
        (EndsAt true call.answers (w.stream.read call) →
          (w.stream.read call).result = .ready (.error Hdlc.eofInFrame)) := by
  intro w
  have h : w.Delivers := Delivers.run ⟨le_rfl, rfl⟩ calls
  refine ⟨h.bounded, h.bytes, fun call hremaining => ?_⟩
  have hreads := reads h.bounded call hremaining
  have hafter := (h.after call).bytes
  refine ⟨⟨fun hresult => ?_, fun hend => hreads.ends false hend.2⟩, hreads.ends true⟩
  obtain ⟨hend, hunread⟩ := hreads.eof hresult
  refine ⟨?_, hend⟩
  rw [← hafter]
  exact ((congrArg ((w.after call).delivered ++ ·) hunread).trans (List.append_nil _)).symm

end Receiver

end Axsh

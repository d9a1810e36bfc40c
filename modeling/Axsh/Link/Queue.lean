/-
# One direction of a faithful connection

A pipe whose ends do more than send in the one and read in the other: the writer reads and the
reader sends as well, and the pipe may end behind the last byte. None of that disturbs what is
in flight, and a read that meets the end has delivered everything that was accepted.
-/

import Axsh.Delivery

set_option autoImplicit false

namespace Axsh

open PayloadStream
open Hdlc (AsyncFrameReader ReadResult)

variable {C : Crypto}

/-! ## The end behind the last frame -/

/-- A fill that meets the end between two frames. -/
theorem PayloadStream.pollFillReadBuffer_none {V : Verifier} {clock : ℕ → Instant}
    {self : PayloadStream C} {answers rest : List ReadResult} {frameReader : AsyncFrameReader}
    (h : self.frameReader.pollReadFrame answers = (frameReader, rest, .ready (.ok none))) :
    self.pollFillReadBuffer V clock answers =
      { stream := { self with frameReader }, rest, result := .ready (.ok false) } := by
  rw [pollFillReadBuffer]
  split
  all_goals
    rename_i hread
    cases h.symm.trans hread
  rfl

/-- A read whose fill meets the end returns no byte. -/
theorem PayloadStream.pollReadPayload_ended {V : Verifier} {clock : ℕ → Instant}
    {self stream : PayloadStream C} {remaining : ℕ} {answers rest : List ReadResult}
    (hremaining : remaining ≠ 0) (hbounded : self.readOffset ≤ self.readBuffer.length)
    (hunread : self.unread = [])
    (hfill : self.pollFillReadBuffer V clock answers = ⟨stream, rest, .ready (.ok false)⟩) :
    self.pollReadPayload V clock remaining answers = ⟨stream, rest, .ready (.ok [])⟩ := by
  rw [pollReadPayload, if_neg hremaining, if_pos ((readOffset_eq_iff hbounded).mpr hunread), hfill]

section Ended

variable {V : Verifier} {stream : PayloadStream C} {signer : PacketSign C} {seen more : Bytes}
  {pending : List Bytes} {clock : ℕ → Instant}

/-- A fill that meets all frames and the end behind them returns with the first payload that is
not a keepalive, or says that the stream has ended. -/
theorem fill_ended (hV : V.Correct C) (h : Receiving stream signer seen pending more)
    (hunread : stream.unread = [])
    (hidle : NoIdleGap stream.peerPacketVerify.lastSuccess clock) :
    ∃ out, stream.pollFillReadBuffer V clock (more.map .byte ++ [.eof]) = out ∧
      ∃ done pending' left,
        Passes out.stream signer pending more [] done pending' [] left ∧
        out.stream.unread = done.flatten ∧
        (out.result = .ready (.ok false) ∧ out.rest = [] ∧ pending' = [] ∧ left = [] ∧
            out.stream.unread = [] ∨
          out.result = .ready (.ok true) ∧ out.rest = left.map .byte ++ [.eof] ∧
            out.stream.unread ≠ []) := by
  have hstream : stream = stream.withReader seen := by
    rw [PayloadStream.withReader, ← h.reader]
  induction pending generalizing stream seen more signer clock with
  | nil =>
    obtain ⟨rfl, rfl⟩ := h.nil
    have hread : stream.frameReader.pollReadFrame (([] : Bytes).map .byte ++ [.eof]) =
        (.new, [], .ready (.ok none)) := by
      rw [h.reader]
      rfl
    refine ⟨_, pollFillReadBuffer_none hread, [], [], [], ⟨rfl, ?_, List.suffix_refl _⟩, hunread,
      .inl ⟨rfl, rfl, rfl, rfl, hunread⟩⟩
    exact ⟨h.matching, h.fits, rfl, h.bytes, h.incomplete⟩
  | cons data pending ih =>
    obtain ⟨tail, htail, hframe, rfl⟩ := h.cons
    have hfits : (Hdlc.encode (payloadWire signer data)).length ≤ Hdlc.maxFrameSize :=
      h.fits _ List.mem_cons_self
    have hcarries :=
      carries_payloadFrame h.matching (vouches_of_correct hV _ data) hfits hidle.first
    have hfill := pollFillReadBuffer_rest hfits hframe.symm htail hcarries
      (((payloadFrames (signer.sign data).2 pending).flatten).map .byte ++ [.eof])
    rw [← hstream, ← List.append_assoc, ← List.map_append] at hfill
    have hnext := h.received (clock 1)
    have hnone : (stream.withReader []).unread = [] := hunread
    have hdata := unread_received hnone data (clock 1)
    by_cases hempty : data.isEmpty
    · obtain rfl := List.isEmpty_iff.mp hempty
      obtain ⟨out, hout, done, pending', left, hpasses, hdone, hresult⟩ :=
        ih hnext hdata hidle.tail rfl
      refine ⟨out, (hfill.trans (if_pos rfl)).trans hout, [] :: done, pending', left,
        hpasses.cons, ?_, hresult⟩
      rw [hdone, List.flatten_cons, List.nil_append]
    · refine ⟨_, hfill.trans (if_neg hempty), [data], pending,
        (payloadFrames (signer.sign data).2 pending).flatten, ⟨rfl, ?_, List.suffix_append _ _⟩, ?_,
        .inr ⟨rfl, rfl, ?_⟩⟩
      · rw [List.append_nil]
        exact hnext
      · exact hdata.trans List.flatten_singleton.symm
      · exact fun hnil => hempty (List.isEmpty_iff.mpr (hdata.symm.trans hnil))

/-- So a read returns no byte only with everything delivered, and else it delivers something. -/
theorem read_ended (hV : V.Correct C) (hbounded : stream.Bounded)
    (h : Receiving stream signer seen pending more)
    (hidle : NoIdleGap stream.peerPacketVerify.lastSuccess clock) {remaining : ℕ}
    (hremaining : remaining ≠ 0) :
    ∃ out, stream.read ⟨V, clock, remaining, more.map .byte ++ [.eof]⟩ = out ∧
      ∃ done pending' seen' left,
        Passes out.stream signer pending more [] done pending' seen' left ∧
        stream.unread ++ done.flatten = deliveredBy out.result ++ out.stream.unread ∧
        (out.result = .ready (.ok []) ∧ out.rest = [] ∧ pending' = [] ∧ left = [] ∧
            out.stream.unread = [] ∨
          out.rest = left.map .byte ++ [.eof] ∧
            ∃ bytes, out.result = .ready (.ok bytes) ∧ bytes ≠ []) := by
  have hcopied {filled next : PayloadStream C} {done pending' : List Bytes} {seen' left : Bytes}
      (hnext : next = { filled with readBuffer := next.readBuffer, readOffset := next.readOffset })
      (hpasses : Passes filled signer pending more [] done pending' seen' left) :
      Passes next signer pending more [] done pending' seen' left := by
    obtain ⟨hsplit, ⟨hmatching, hfits, hreader, hbytes, hincomplete⟩, hused⟩ := hpasses
    rw [hnext]
    exact ⟨hsplit, ⟨hmatching, hfits, hreader, hbytes, hincomplete⟩, hused⟩
  have htake {bytes : Bytes} (hne : bytes ≠ []) : bytes.take remaining ≠ [] := by
    intro hnil
    rcases List.take_eq_nil_iff.mp hnil with hzero | hempty
    · exact hremaining hzero
    · exact hne hempty
  by_cases hunread : stream.unread = []
  · obtain ⟨filled, hfill, done, pending', left, hpasses, hdone, hresult⟩ :=
      fill_ended hV h hunread hidle
    rcases hresult with ⟨hended, hrest, hnone, hleft, hempty⟩ | ⟨hfull, hrest, hsome⟩
    · have hfill : stream.pollFillReadBuffer V clock (more.map .byte ++ [.eof]) =
          ⟨filled.stream, filled.rest, .ready (.ok false)⟩ := hended ▸ hfill
      refine ⟨_, pollReadPayload_ended hremaining hbounded.read hunread hfill, done, pending', [],
        left, hpasses, ?_, .inl ⟨rfl, hrest, hnone, hleft, hempty⟩⟩
      rw [hunread, ← hdone]
      rfl
    · have hfilled := pollFillReadBuffer_bounded V clock hbounded.read (more.map .byte ++ [.eof])
      rw [hfill] at hfilled
      have hfill : stream.pollFillReadBuffer V clock (more.map .byte ++ [.eof]) =
          ⟨filled.stream, filled.rest, .ready (.ok true)⟩ := hfull ▸ hfill
      obtain ⟨next, hcopy, hnext, -, hleftover⟩ := copyOut_eq hfilled remaining
      refine ⟨_, pollReadPayload_filled hremaining hbounded.read hunread hfill hcopy,
        done, pending', [], left, hcopied hnext hpasses, ?_, .inr ⟨hrest, _, rfl, htake hsome⟩⟩
      rw [hunread, ← hdone, hleftover]
      exact (List.take_append_drop remaining filled.stream.unread).symm
  · obtain ⟨next, hcopy, hnext, -, hleftover⟩ := copyOut_eq hbounded.read remaining
    refine ⟨_, pollReadPayload_unread hremaining hbounded.read hunread hcopy,
      [], pending, seen, more, hcopied hnext ⟨rfl, ?_, List.suffix_refl _⟩, ?_,
      .inr ⟨rfl, _, rfl, htake hunread⟩⟩
    · rw [List.append_nil]
      exact h
    · rw [hleftover]
      exact (List.append_nil _).trans (List.take_append_drop remaining stream.unread).symm

end Ended

/-! ## The pipe between two ends -/

/-- What a call meets of the bytes on their way: the first of them, or all and the end. -/
inductive Meets (fifo : Bytes) (ended : Prop) : List ReadResult → Prop
  | bytes (available : ℕ) : Meets fifo ended ((fifo.take available).map .byte)
  | eof (h : ended) : Meets fifo ended (fifo.map .byte ++ [.eof])

namespace Pipe

/-- The pipe after a read that meets `call.answers` of it. -/
def afterRead (w : Pipe C) (call : ReadCall) : Pipe C :=
  let read := w.receiver.read call
  { w with
    receiver := read.stream
    fifo := w.fifo.drop (call.answers.length - read.rest.length)
    delivered := w.delivered ++ deliveredBy read.result }

/-- The pipe after a call of its writer. -/
def afterSend (w : Pipe C) (call : SendCall) : Pipe C :=
  let sent := w.sender.send call
  { w with
    sender := sent.stream
    fifo := w.fifo ++ sent.taken
    accepted := w.accepted ++ sent.accepted }

/-- What is in the pipe is the rest of what its writer has signed. -/
def Ordered (w : Pipe C) : Prop := ∃ signer seen pending, w.InFlight signer seen pending

/-- What comes of a read: it has used up what it met, it delivers something, or it is at the
end with everything delivered. -/
inductive ReadOutcome (w : Pipe C) (ended : Prop) (call : ReadCall) : Prop
  | pending (available : ℕ) (hanswers : call.answers = (w.fifo.take available).map .byte)
      (hresult : (w.receiver.read call).result = .pending)
      (hrest : (w.receiver.read call).rest = [])
  | data (bytes : Bytes) (hbytes : bytes ≠ [])
      (hresult : (w.receiver.read call).result = .ready (.ok bytes))
  | eof (hended : ended) (hresult : (w.receiver.read call).result = .ready (.ok []))
      (hfifo : (w.afterRead call).fifo = [])
      (hall : (w.afterRead call).delivered = w.accepted)

section Steps

variable {V : Verifier} {w : Pipe C} {signer : PacketSign C} {seen : Bytes} {pending : List Bytes}

theorem after_read (V : Verifier) (w : Pipe C) (clock : ℕ → Instant) (remaining available : ℕ) :
    w.after V (.read clock remaining available) =
      w.afterRead ⟨V, clock, remaining, (w.fifo.take available).map .byte⟩ := by
  rw [after, afterRead, List.length_map]
  rfl

/-- A read to the end, which is behind the last byte that the writer has. -/
theorem InFlight.read_eof (hV : V.Correct C) (h : w.InFlight signer seen pending)
    (hunsent : w.sender.unsent = []) {clock : ℕ → Instant}
    (hidle : NoIdleGap w.receiver.peerPacketVerify.lastSuccess clock) {remaining : ℕ}
    (hremaining : remaining ≠ 0) {ended : Prop} (hended : ended) :
    (w.afterRead ⟨V, clock, remaining, w.fifo.map .byte ++ [.eof]⟩).Ordered ∧
      w.ReadOutcome ended ⟨V, clock, remaining, w.fifo.map .byte ++ [.eof]⟩ := by
  have hrec := h.receiving
  rw [hunsent, List.append_nil] at hrec
  obtain ⟨out, hout, done, pending', seen', left, hpasses, hdelivered, hresult⟩ :=
    read_ended hV h.receiverBounded hrec hidle hremaining
  have hbounded := (read_sameWrite h.receiverBounded
    ⟨V, clock, remaining, w.fifo.map .byte ++ [.eof]⟩).2
  obtain ⟨used, hused⟩ := hpasses.used
  have hlength :
      (w.fifo.map ReadResult.byte ++ [ReadResult.eof]).length = w.fifo.length + 1 := by simp
  -- The bytes behind those that the call has used are still there.
  have hfifo : w.fifo.drop
      ((w.fifo.map ReadResult.byte ++ [ReadResult.eof]).length - out.rest.length) = left := by
    rw [hlength]
    rcases hresult with ⟨-, hrest, -, rfl, -⟩ | ⟨hrest, -⟩
    · exact List.drop_eq_nil_of_le (by rw [hrest]; exact Nat.le_succ _)
    · have hleft : out.rest.length = left.length + 1 := by simp [hrest]
      rw [hleft, Nat.add_sub_add_right, ← hused, List.length_append, Nat.add_sub_cancel,
        List.drop_left]
  have hbytes : w.accepted = w.delivered ++ deliveredBy out.result ++ out.stream.unread ++
      pending'.flatten := by
    rw [h.accepted, hpasses.split, List.flatten_append, ← List.append_assoc,
      List.append_assoc w.delivered, hdelivered, ← List.append_assoc]
  refine ⟨⟨signer.signAll done, seen', pending', h.senderBounded, hbounded, ?_, ?_, ?_⟩, ?_⟩
  · rw [← PacketSign.signAll_append, ← hpasses.split]
    exact h.signed
  · have hnext := hpasses.receiving
    rw [← hfifo, ← hunsent] at hnext
    simp only [afterRead, hout]
    exact hnext
  · simp only [afterRead, hout]
    exact hbytes
  · rcases hresult with ⟨hend, hrest, rfl, rfl, hunread⟩ | ⟨-, bytes, hsome, hne⟩
    · refine .eof hended (hout ▸ hend) ?_ ?_
      · simp only [afterRead, hout]
        exact hfifo
      · simp only [afterRead, hout]
        rw [hbytes, hunread, List.append_nil]
        exact (List.append_nil _).symm
    · exact .data bytes hne (hout ▸ hsome)

/-- A read keeps the pipe in order and does not fail. -/
theorem Ordered.afterRead (hV : V.Correct C) (h : w.Ordered) {ended : Prop}
    (hended : ended → w.sender.unsent = []) {clock : ℕ → Instant}
    (hidle : NoIdleGap w.receiver.peerPacketVerify.lastSuccess clock) {remaining : ℕ}
    (hremaining : remaining ≠ 0) {answers : List ReadResult} (hmeets : Meets w.fifo ended answers) :
    (w.afterRead ⟨V, clock, remaining, answers⟩).Ordered ∧
      w.ReadOutcome ended ⟨V, clock, remaining, answers⟩ := by
  obtain ⟨signer, seen, pending, h⟩ := h
  cases hmeets with
  | bytes available =>
    have hallowed : w.Allowed (.read clock remaining available) := ⟨hremaining, hidle⟩
    obtain ⟨-, hnext⟩ := h.read hV hallowed
    rw [after_read] at hnext
    refine ⟨hnext, ?_⟩
    rcases h.read_result hV hallowed with ⟨hwait, hrest, -⟩ | ⟨bytes, hne, hsome⟩
    · exact .pending available rfl hwait hrest
    · exact .data bytes hne hsome
  | eof hend => exact h.read_eof hV (hended hend) hidle hremaining hend

/-- The calls under which a connection is faithful: it takes bytes or is pending, and does not
fail. -/
def Answers : SendCall → Prop
  | .write _ answers | .keepalive answers => Faithful answers
  | .flush answers poll | .shutdown answers poll =>
    Faithful answers ∧ ∀ e, poll ≠ .ready (.error e)

/-- A payload that the call may sign is short. -/
def Short : SendCall → Prop
  | .write buf _ => buf.length ≤ 32700
  | .keepalive _ | .flush _ _ | .shutdown _ _ => True

/-- A call of the writer keeps the pipe in order and does not fail. A shutdown of the stream
does to it what a flush does. -/
theorem Ordered.afterSend (h : w.Ordered) {call : SendCall} (hanswers : Answers call)
    (hshort : Short call) :
    (w.afterSend call).Ordered ∧ (w.sender.send call).failure = none := by
  obtain ⟨signer, seen, pending, h⟩ := h
  have hallowed {call : SendCall} (hallowed : w.Allowed (.send call)) :
      (w.afterSend call).Ordered ∧ (w.sender.send call).failure = none := by
    have hnext : ∃ pending', (w.after .acceptAll (.send call)).InFlight signer seen pending' :=
      h.send hallowed
    obtain ⟨pending', hnext⟩ := hnext
    exact ⟨⟨signer, seen, pending', hnext⟩, send_failure h.senderBounded hallowed⟩
  cases call with
  | write buf answers => exact hallowed ⟨hanswers, fits_of_length_le _ hshort⟩
  | keepalive answers => exact hallowed hanswers
  | flush answers poll => exact hallowed hanswers
  | shutdown answers poll =>
    have hflush : (w.afterSend (.flush answers poll)).Ordered ∧
        (w.sender.send (.flush answers poll)).failure = none := hallowed hanswers
    exact hflush

/-- What the reader sends is not in this pipe. -/
theorem Ordered.receiver (h : w.Ordered) {next : PayloadStream C}
    (hsame : SameRead w.receiver next) (hbounded : next.Bounded) :
    { w with receiver := next }.Ordered := by
  obtain ⟨signer, seen, pending, h⟩ := h
  obtain ⟨hmatching, hfits, hreader, hbytes, hincomplete⟩ := h.receiving
  refine ⟨signer, seen, pending, h.senderBounded, hbounded, h.signed,
    ⟨?_, hfits, hsame.frameReader.trans hreader, hbytes, hincomplete⟩, ?_⟩
  · rw [hsame.peerPacketVerify]
    exact hmatching
  · rw [h.accepted, unread, unread, hsame.readBuffer, hsame.readOffset]

/-- Nor is what the writer reads. -/
theorem Ordered.sender (h : w.Ordered) {next : PayloadStream C}
    (hsame : SameWrite w.sender next) (hbounded : next.Bounded) :
    { w with sender := next }.Ordered := by
  obtain ⟨signer, seen, pending, h⟩ := h
  have hunsent : next.unsent = w.sender.unsent := by
    rw [unsent, unsent, hsame.writeBuffer, hsame.writeOffset]
  refine ⟨signer, seen, pending, hbounded, h.receiverBounded, hsame.packetSign.trans h.signed, ?_,
    h.accepted⟩
  change Receiving w.receiver signer seen pending (w.fifo ++ next.unsent)
  rw [hunsent]
  exact h.receiving

/-- A read that changes nothing met nothing, or the end. -/
theorem ReadOutcome.of_same {ended : Prop} {call : ReadCall} (h : w.ReadOutcome ended call)
    (hsame : w.afterRead call = w) :
    call.answers = [] ∨ ended ∧ (w.receiver.read call).result = .ready (.ok []) := by
  cases h with
  | pending available hanswers hresult hrest =>
    have hfifo : w.fifo.drop (call.answers.length - (w.receiver.read call).rest.length) = w.fifo :=
      congrArg Pipe.fifo hsame
    have hlength := congrArg List.length hfifo
    rw [hrest, hanswers, List.length_drop, List.length_map, List.length_take, List.length_nil]
      at hlength
    have hnone : w.fifo.take available = [] := by
      rw [← List.length_eq_zero_iff, List.length_take]
      omega
    exact .inl (by rw [hanswers, hnone, List.map_nil])
  | data bytes hbytes hresult =>
    have hdelivered : w.delivered ++ deliveredBy (w.receiver.read call).result = w.delivered :=
      congrArg Pipe.delivered hsame
    rw [hresult] at hdelivered
    exact absurd (List.append_cancel_left (hdelivered.trans (List.append_nil _).symm)) hbytes
  | eof hended hresult hfifo hall => exact .inr ⟨hended, hresult⟩

theorem Ordered.senderBounded (h : w.Ordered) : w.sender.Bounded := by
  obtain ⟨signer, seen, pending, h⟩ := h
  exact h.senderBounded

theorem Ordered.receiverBounded (h : w.Ordered) : w.receiver.Bounded := by
  obtain ⟨signer, seen, pending, h⟩ := h
  exact h.receiverBounded

/-- With nothing on its way and nothing unread, everything that was accepted is delivered. -/
theorem Ordered.delivered_eq (h : w.Ordered) (hfifo : w.fifo = []) (hunsent : w.sender.unsent = [])
    (hunread : w.receiver.unread = []) : w.delivered = w.accepted := by
  obtain ⟨signer, seen, pending, h⟩ := h
  have hrec := h.receiving
  rw [hfifo, hunsent] at hrec
  obtain rfl := hrec.eq_nil
  rw [h.accepted, hunread, List.append_nil]
  exact (List.append_nil _).symm

/-- What was delivered is the beginning of what was accepted. -/
theorem Ordered.delivered_isPrefix (h : w.Ordered) : w.delivered <+: w.accepted := by
  obtain ⟨signer, seen, pending, h⟩ := h
  rw [h.accepted, List.append_assoc]
  exact List.prefix_append _ _

end Steps

end Pipe

end Axsh

/-
# Reading a sequence of genuine frames

A stream whose peer signs payload after payload has seen a part of the frames
that are on their way, and not the end of the first one (`Receiving`). A fill
moves along the sequence: it passes keepalives, it stops in the middle of a frame
or after a payload, and it never fails. A read delivers from what has been
passed.
-/

import Axsh.Transport.Genuine

set_option autoImplicit false

namespace Axsh

open PayloadStream
open Hdlc (AsyncFrameReader)

variable {C : Crypto}

/-! ## Sequences of genuine frames -/

/-- The signer after it has signed the payloads in turn. -/
def PacketSign.signAll (signer : PacketSign C) (payloads : List Bytes) : PacketSign C :=
  payloads.foldl (fun signer data => (signer.sign data).2) signer

/-- The frames of payloads that are signed in turn. -/
def payloadFrames (signer : PacketSign C) : List Bytes → List Bytes
  | [] => []
  | data :: payloads => payloadFrame signer data :: payloadFrames (signer.sign data).2 payloads

theorem payloadFrames_concat (signer : PacketSign C) (payloads : List Bytes) (data : Bytes) :
    payloadFrames signer (payloads ++ [data]) =
      payloadFrames signer payloads ++ [payloadFrame (signer.signAll payloads) data] := by
  induction payloads generalizing signer with
  | nil => rfl
  | cons first payloads ih =>
    rw [List.cons_append, payloadFrames, ih]
    rfl

theorem PacketSign.signAll_append (signer : PacketSign C) (first second : List Bytes) :
    signer.signAll (first ++ second) = (signer.signAll first).signAll second :=
  List.foldl_append ..

/-- Signing payloads moves the counter on by their number. -/
theorem PacketSign.signAll_eq (signer : PacketSign C) (payloads : List Bytes) :
    signer.signAll payloads =
      { signer with signCounter := signer.signCounter + UInt64.ofNat payloads.length } := by
  induction payloads using List.reverseRecOn with
  | nil => exact congrArg (PacketSign.mk signer.keyPair) (UInt64.add_zero _).symm
  | append_singleton payloads data ih =>
    rw [signAll_append, ih, List.length_append, List.length_singleton, UInt64.ofNat_add,
      ← UInt64.add_assoc]
    rfl

/-- A new signer counts the payloads it has signed. -/
theorem PacketSign.signAll_new (keyPair : C.Ed25519KeyPair) (payloads : List Bytes) :
    (new keyPair).signAll payloads = ⟨keyPair, UInt64.ofNat payloads.length⟩ := by
  rw [signAll_eq]
  exact congrArg (PacketSign.mk keyPair) (UInt64.zero_add _)

/-- The reader has seen `seen` of the frames of `pending`, not to the end of the
first one, and `coming` is the rest of them. -/
structure Receiving (stream : PayloadStream C) (signer : PacketSign C) (seen : Bytes)
    (pending : List Bytes) (coming : Bytes) : Prop where
  matching : Matches signer stream.peerPacketVerify
  fits : ∀ frame ∈ payloadFrames signer pending, frame.length ≤ Hdlc.maxFrameSize
  reader : stream.frameReader = AsyncFrameReader.holding seen
  bytes : seen ++ coming = (payloadFrames signer pending).flatten
  incomplete : ∀ frame ∈ (payloadFrames signer pending).head?,
    ∃ tail, tail ≠ [] ∧ frame = seen ++ tail

/-- No more than the allowed time passes between the last success, or the clock
reading that records one, and the reading of the next idle check. -/
structure NoIdleGap (lastSuccess : Instant) (clock : ℕ → Instant) : Prop where
  first : clock 0 - lastSuccess ≤ maxConnectionIdle
  next : ∀ i, clock (2 * i + 2) - clock (2 * i + 1) ≤ maxConnectionIdle

/-- The clock readings after a verification. -/
theorem NoIdleGap.tail {lastSuccess : Instant} {clock : ℕ → Instant}
    (h : NoIdleGap lastSuccess clock) : NoIdleGap (clock 1) (fun i => clock (i + 2)) where
  first := h.next 0
  next i := h.next (i + 1)

/-- With nothing pending there is nothing to come. -/
theorem Receiving.nil {stream : PayloadStream C} {signer : PacketSign C} {seen coming : Bytes}
    (h : Receiving stream signer seen [] coming) : seen = [] ∧ coming = [] :=
  List.append_eq_nil_iff.mp h.bytes

/-- The first pending frame is what was seen of it and its tail; the other frames
come after that. -/
theorem Receiving.cons {stream : PayloadStream C} {signer : PacketSign C} {seen coming data : Bytes}
    {pending : List Bytes} (h : Receiving stream signer seen (data :: pending) coming) :
    ∃ tail, tail ≠ [] ∧ payloadFrame signer data = seen ++ tail ∧
      coming = tail ++ (payloadFrames (signer.sign data).2 pending).flatten := by
  obtain ⟨tail, htail, hframe⟩ := h.incomplete _ rfl
  refine ⟨tail, htail, hframe, ?_⟩
  have hbytes := h.bytes
  rw [payloadFrames, List.flatten_cons, hframe, List.append_assoc] at hbytes
  exact List.append_cancel_left hbytes

/-- When nothing is to come, nothing is pending. -/
theorem Receiving.eq_nil {stream : PayloadStream C} {signer : PacketSign C} {seen : Bytes}
    {pending : List Bytes} (h : Receiving stream signer seen pending []) : pending = [] := by
  match pending, h with
  | [], _ => rfl
  | _ :: _, h =>
    obtain ⟨tail, htail, -, hcoming⟩ := h.cons
    exact absurd (List.append_eq_nil_iff.mp hcoming.symm).1 htail

/-- After the first pending payload the reader is at the start of the next frame. -/
theorem Receiving.received {stream : PayloadStream C} {signer : PacketSign C}
    {seen coming data : Bytes}
    {pending : List Bytes} (h : Receiving stream signer seen (data :: pending) coming)
    (later : Instant) :
    Receiving ((stream.withReader []).received data later) (signer.sign data).2 [] pending
      (payloadFrames (signer.sign data).2 pending).flatten where
  matching := by
    rw [received_peerPacketVerify]
    exact h.matching.next data later
  fits frame hmem := h.fits frame (List.mem_cons_of_mem _ hmem)
  reader := by
    rw [received_frameReader]
    rfl
  bytes := rfl
  incomplete frame hmem := by
    refine ⟨frame, ?_, rfl⟩
    match pending, hmem with
    | _ :: _, rfl => exact payloadFrame_ne_nil _ _

/-- A payload that the signer adds behind the pending ones. -/
theorem Receiving.concat {stream : PayloadStream C} {signer : PacketSign C} {seen coming : Bytes}
    {pending : List Bytes} (h : Receiving stream signer seen pending coming) {data : Bytes}
    (hfits : Fits (signer.signAll pending) data) :
    Receiving stream signer seen (pending ++ [data])
      (coming ++ payloadFrame (signer.signAll pending) data) where
  matching := h.matching
  fits frame hmem := by
    rw [payloadFrames_concat, List.mem_append, List.mem_singleton] at hmem
    rcases hmem with hmem | rfl
    · exact h.fits frame hmem
    · exact hfits
  reader := h.reader
  bytes := by
    rw [payloadFrames_concat, List.flatten_append, ← h.bytes, List.flatten_singleton,
      List.append_assoc]
  incomplete frame hmem := by
    -- Where nothing was pending the new frame is the one that is begun next; else that is still the
    -- first.
    match pending, h with
    | [], h =>
      obtain ⟨rfl, -⟩ := h.nil
      obtain rfl := Option.some.inj hmem
      exact ⟨_, payloadFrame_ne_nil _ _, rfl⟩
    | _ :: _, h => exact h.incomplete frame hmem

/-- What a read has done with `more` of the bytes to come: it has accepted `done`
of the pending payloads, has seen `seen'` of the next frame, and has left `left`
of the bytes. -/
structure Passes (stream : PayloadStream C) (signer : PacketSign C) (pending : List Bytes)
    (more later : Bytes) (done pending' : List Bytes) (seen' left : Bytes) : Prop where
  split : pending = done ++ pending'
  receiving : Receiving stream (signer.signAll done) seen' pending' (left ++ later)
  used : left <:+ more

/-- One payload passed, and then more of them. -/
theorem Passes.cons {stream : PayloadStream C} {signer : PacketSign C} {data : Bytes}
    {pending done pending' : List Bytes} {tail more later seen' left : Bytes}
    (h : Passes stream (signer.sign data).2 pending more later done pending' seen' left) :
    Passes stream signer (data :: pending) (tail ++ more) later (data :: done) pending' seen'
      left where
  split := congrArg (data :: ·) h.split
  receiving := h.receiving
  used := h.used.trans (List.suffix_append _ _)

/-- Two ways to cut the same bytes: the first cut falls inside `tail`, or not. -/
theorem cut_append {more later tail frames : Bytes} (h : more ++ later = tail ++ frames) :
    (∃ rest, rest ≠ [] ∧ tail = more ++ rest ∧ later = rest ++ frames) ∨
      ∃ rest, more = tail ++ rest ∧ frames = rest ++ later := by
  rcases List.append_eq_append_iff.mp h with ⟨rest, hcut, hlater⟩ | hcut
  · by_cases hrest : rest = []
    · subst hrest
      exact .inr ⟨[], by rw [hcut, List.append_nil, List.append_nil], hlater.symm⟩
    · exact .inl ⟨rest, hrest, hcut, hlater⟩
  · exact .inr hcut

/-- A fill passes over keepalives. It is pending once it has used all the bytes,
or it returns with the first payload that is not one. -/
theorem fill_passes {V : Verifier} (hV : V.Correct C) {stream : PayloadStream C}
    {signer : PacketSign C} {seen : Bytes} {pending : List Bytes} {more later : Bytes}
    (h : Receiving stream signer seen pending (more ++ later)) (hunread : stream.unread = [])
    {clock : ℕ → Instant} (hidle : NoIdleGap stream.peerPacketVerify.lastSuccess clock) :
    ∃ out, stream.pollFillReadBuffer V clock (more.map .byte) = out ∧
      ∃ done pending' seen' left,
        Passes out.stream signer pending more later done pending' seen' left ∧
        out.rest = left.map .byte ∧ out.stream.unread = done.flatten ∧
        (out.result = .pending ∧ left = [] ∧ out.stream.unread = [] ∨
          out.result = .ready (.ok true) ∧ out.stream.unread ≠ []) := by
  have hstream : stream = stream.withReader seen := by
    rw [PayloadStream.withReader, ← h.reader]
  -- The induction is on the payloads that are pending; each keepalive takes one of them away.
  induction pending generalizing stream signer seen more clock with
  | nil =>
    obtain ⟨rfl, hcoming⟩ := h.nil
    obtain ⟨rfl, rfl⟩ := List.append_eq_nil_iff.mp hcoming
    have hread : stream.frameReader.pollReadFrame (([] : Bytes).map .byte) =
        (.new, [], .pending) := by
      rw [h.reader]
      rfl
    refine ⟨_, pollFillReadBuffer_pending hread, [], [], [], [], ⟨rfl, ?_, List.suffix_refl _⟩, rfl,
      hunread, .inl ⟨rfl, rfl, hunread⟩⟩
    exact ⟨h.matching, h.fits, rfl, h.bytes, h.incomplete⟩
  | cons data pending ih =>
    obtain ⟨tail, htail, hframe, hcoming⟩ := h.cons
    have hfits : (Hdlc.encode (payloadWire signer data)).length ≤ Hdlc.maxFrameSize :=
      h.fits _ List.mem_cons_self
    rcases cut_append hcoming with ⟨rest, hrest, hcut, hlater⟩ | ⟨rest, rfl, hframes⟩
    · -- The bytes end inside the first frame.
      have hsplit : seen ++ more ++ rest = Hdlc.encode (payloadWire signer data) := by
        rw [List.append_assoc, ← hcut]
        exact hframe.symm
      have hfill := pollFillReadBuffer_more V clock stream hfits hsplit hrest
      rw [← hstream] at hfill
      refine ⟨_, hfill, [], data :: pending, seen ++ more, [], ⟨rfl, ?_, List.nil_suffix⟩, rfl,
        hunread, .inl ⟨rfl, rfl, hunread⟩⟩
      refine ⟨h.matching, h.fits, rfl, ?_, ?_⟩
      · rw [List.nil_append, List.append_assoc]
        exact h.bytes
      · rintro frame ⟨⟩
        exact ⟨rest, hrest, hsplit.symm⟩
    · -- The bytes complete the first frame, whose payload is accepted.
      have hcarries := carries_payloadFrame h.matching (vouches_of_correct hV _ data)
        hfits hidle.first
      have hfill := pollFillReadBuffer_rest hfits hframe.symm htail hcarries (rest.map .byte)
      rw [← hstream, ← List.map_append] at hfill
      have hnext := h.received (clock 1)
      rw [hframes] at hnext
      have hnone : (stream.withReader []).unread = [] := hunread
      have hdata := unread_received hnone data (clock 1)
      -- A keepalive is passed over, and the loop is in the case of the payloads behind it.
      by_cases hempty : data.isEmpty
      · obtain rfl := List.isEmpty_iff.mp hempty
        obtain ⟨out, hout, done, pending', seen', left, hpasses, hrest, hdone, hresult⟩ :=
          ih hnext hdata hidle.tail rfl
        refine ⟨out, (hfill.trans (if_pos rfl)).trans hout, [] :: done, pending', seen', left,
          hpasses.cons, hrest, ?_, hresult⟩
        rw [hdone, List.flatten_cons, List.nil_append]
      · refine ⟨_, hfill.trans (if_neg hempty), [data], pending, [], rest,
          ⟨rfl, hnext, List.suffix_append _ _⟩, rfl, ?_, .inr ⟨rfl, ?_⟩⟩
        · exact hdata.trans List.flatten_singleton.symm
        · exact fun hnil => hempty (List.isEmpty_iff.mpr (hdata.symm.trans hnil))

/-- What a read does: it passes some of the pending payloads, and delivers from
what was unread and what it has passed. It is pending with all the bytes used and
nothing unread, or it delivers something. -/
theorem read_passes {V : Verifier} (hV : V.Correct C) {stream : PayloadStream C}
    (hbounded : stream.Bounded) {signer : PacketSign C} {seen : Bytes} {pending : List Bytes}
    {more later : Bytes} (h : Receiving stream signer seen pending (more ++ later))
    {clock : ℕ → Instant} (hidle : NoIdleGap stream.peerPacketVerify.lastSuccess clock)
    {remaining : ℕ} (hremaining : remaining ≠ 0) :
    ∃ out, stream.read ⟨V, clock, remaining, more.map .byte⟩ = out ∧
      ∃ done pending' seen' left,
        Passes out.stream signer pending more later done pending' seen' left ∧
        out.rest = left.map .byte ∧
        stream.unread ++ done.flatten = deliveredBy out.result ++ out.stream.unread ∧
        (out.result = .pending ∧ left = [] ∧ out.stream.unread = [] ∨
          ∃ bytes, out.result = .ready (.ok bytes) ∧ bytes ≠ []) := by
  -- Copying out touches only the read buffer.
  have hcopied : ∀ {filled next : PayloadStream C} {done pending' seen' left},
      next = { filled with readBuffer := next.readBuffer, readOffset := next.readOffset } →
      Passes filled signer pending more later done pending' seen' left →
      Passes next signer pending more later done pending' seen' left := by
    intro filled next done pending' seen' left hnext hpasses
    rw [hnext]
    obtain ⟨hsplit, ⟨hmatching, hfits, hreader, hbytes, hincomplete⟩, hused⟩ := hpasses
    exact ⟨hsplit, ⟨hmatching, hfits, hreader, hbytes, hincomplete⟩, hused⟩
  have htake : ∀ {bytes : Bytes}, bytes ≠ [] → bytes.take remaining ≠ [] := by
    intro bytes hne hnil
    rcases List.take_eq_nil_iff.mp hnil with hzero | hempty
    · exact hremaining hzero
    · exact hne hempty
  by_cases hunread : stream.unread = []
  · obtain ⟨filled, hfill, done, pending', seen', left, hpasses, hrest, hdone, hresult⟩ :=
      fill_passes hV h hunread hidle
    rcases hresult with ⟨hwait, hleft, hnone⟩ | ⟨hfull, hsome⟩
    · have hfill : stream.pollFillReadBuffer V clock (more.map .byte) =
          ⟨filled.stream, filled.rest, .pending⟩ := hwait ▸ hfill
      refine ⟨_, pollReadPayload_pending hremaining hbounded.read hunread hfill, done, pending',
        seen', left, hpasses, hrest, ?_, .inl ⟨rfl, hleft, hnone⟩⟩
      rw [hunread, ← hdone]
      rfl
    · have hfilled := pollFillReadBuffer_bounded V clock hbounded.read
        (more.map .byte)
      rw [hfill] at hfilled
      have hfill : stream.pollFillReadBuffer V clock (more.map .byte) =
          ⟨filled.stream, filled.rest, .ready (.ok true)⟩ := hfull ▸ hfill
      obtain ⟨next, hcopy, hnext, -, hleftover⟩ := copyOut_eq hfilled remaining
      refine ⟨_, pollReadPayload_filled hremaining hbounded.read hunread hfill hcopy,
        done, pending', seen', left, hcopied hnext hpasses, hrest, ?_, .inr ⟨_, rfl, htake hsome⟩⟩
      rw [hunread, ← hdone, hleftover]
      exact (List.take_append_drop remaining filled.stream.unread).symm
  · obtain ⟨next, hcopy, hnext, -, hleftover⟩ := copyOut_eq hbounded.read remaining
    refine ⟨_, pollReadPayload_unread hremaining hbounded.read hunread hcopy, [], pending,
      seen, more, hcopied hnext ⟨rfl, h, List.suffix_refl _⟩, rfl, ?_, .inr ⟨_, rfl, htake hunread⟩⟩
    rw [hleftover]
    exact (List.append_nil _).trans (List.take_append_drop remaining stream.unread).symm

end Axsh

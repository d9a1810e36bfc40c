/-
# The payload channel over a faithful pipe

Two payload streams with matching keys, joined by a first-in first-out byte
stream that may take any positive number of bytes, or none for now, and may be
pending at any byte. The channel is then a queue: what the reader's application
got, with what is verified but unread and what is signed but not yet received, is
what the writer's application has written (`InFlight`).
-/

import Axsh.Transport.Call
import Axsh.Transport.Receiving
import Axsh.Crypto.Sample

set_option autoImplicit false

namespace Axsh

open PayloadStream
open Hdlc (AsyncFrameReader)

/-- A writer and a reader, the bytes on their way between them, the bytes that
the writer's writes accepted and the bytes that the reader's reads delivered. -/
structure Pipe (C : Crypto) where
  sender : PayloadStream C
  receiver : PayloadStream C
  fifo : Bytes
  accepted : Bytes
  delivered : Bytes

/-- A call on either end. A read meets `available` bytes of the pipe, or all of
them if there are fewer, and then a pending stream. -/
inductive PipeCall
  | send (call : SendCall)
  | read (clock : ℕ → Instant) (remaining available : ℕ)

namespace Pipe

variable {C : Crypto}

/-- Two new streams, the receiver's verifier holding the sender's packet key. -/
def start (senderKey : C.Ed25519KeyPair) (senderVerify : PacketVerify)
    (receiverSign : PacketSign C) (now : Instant) : Pipe C where
  sender := .new (.new senderKey) senderVerify
  receiver := .new receiverSign (.new (C.ed25519PublicKey senderKey) now)
  fifo := []
  accepted := []
  delivered := []

/-- The read call that the receiver makes. -/
def readCall (V : Verifier) (w : Pipe C) (clock : ℕ → Instant) (remaining available : ℕ) :
    ReadCall :=
  ⟨V, clock, remaining, (w.fifo.take available).map .byte⟩

/-- The pipe after a call. Bytes that a read did not get to stay in the pipe. -/
def after (V : Verifier) (w : Pipe C) : PipeCall → Pipe C
  | .send call =>
    let sent := w.sender.send call
    { w with
      sender := sent.stream
      fifo := w.fifo ++ sent.taken
      accepted := w.accepted ++ sent.accepted }
  | .read clock remaining available =>
    let read := w.receiver.read (w.readCall V clock remaining available)
    { w with
      receiver := read.stream
      fifo := w.fifo.drop ((w.fifo.take available).length - read.rest.length)
      delivered := w.delivered ++ deliveredBy read.result }

/-- The error that a call returns. -/
def failure (V : Verifier) (w : Pipe C) : PipeCall → Option Failure
  | .send call => (w.sender.send call).failure
  | .read clock remaining available =>
    failureOf (w.receiver.read (w.readCall V clock remaining available)).result

/-- A faithful stream is pending or takes a positive number of bytes. -/
def Faithful (answers : List WriteResult) : Prop :=
  ∀ answer ∈ answers, answer = .pending ∨ ∃ n, 0 < n ∧ answer = .wrote n

/-- The calls of the two applications and the conditions they are made under:
frames within the reader's limit, a buffer with room, and no idle gap. -/
def Allowed (w : Pipe C) : PipeCall → Prop
  | .send (.write buf answers) => Faithful answers ∧ Fits w.sender.packetSign buf
  | .send (.keepalive answers) => Faithful answers
  | .send (.flush answers pollFlush) => Faithful answers ∧ ∀ e, pollFlush ≠ .ready (.error e)
  | .send (.shutdown _ _) => False
  | .read clock remaining _ =>
    remaining ≠ 0 ∧ NoIdleGap w.receiver.peerPacketVerify.lastSuccess clock

/-- One call of either application. -/
def Step (V : Verifier) (w w' : Pipe C) : Prop := ∃ call, w.Allowed call ∧ w' = w.after V call

/-- Any number of calls. -/
abbrev Run (V : Verifier) : Pipe C → Pipe C → Prop := Relation.ReflTransGen (Step V)

/-- Any number of reads. -/
abbrev Reads (V : Verifier) : Pipe C → Pipe C → Prop := Relation.ReflTransGen fun w w' =>
  ∃ clock remaining available, w.Allowed (.read clock remaining available) ∧
    w' = w.after V (.read clock remaining available)

/-- The pipe holds the rest of the frames of `pending`, in its bytes and in the
writer's buffer; the bytes accepted are those delivered, those unread and those
pending. -/
structure InFlight (w : Pipe C) (signer : PacketSign C) (seen : Bytes) (pending : List Bytes) :
    Prop where
  senderBounded : w.sender.Bounded
  receiverBounded : w.receiver.Bounded
  signed : w.sender.packetSign = signer.signAll pending
  receiving : Receiving w.receiver signer seen pending (w.fifo ++ w.sender.unsent)
  accepted : w.accepted = w.delivered ++ w.receiver.unread ++ pending.flatten

theorem inFlight_start (senderKey : C.Ed25519KeyPair) (senderVerify : PacketVerify)
    (receiverSign : PacketSign C) (now : Instant) :
    (start senderKey senderVerify receiverSign now).InFlight (.new senderKey) [] [] where
  senderBounded := bounded_new _ _
  receiverBounded := bounded_new _ _
  signed := rfl
  receiving := {
    matching := ⟨rfl, rfl⟩
    fits := fun _ hmem => absurd hmem List.not_mem_nil
    reader := rfl
    bytes := rfl
    incomplete := fun _ hmem => nomatch hmem }
  accepted := rfl

section Steps

variable {V : Verifier} {w : Pipe C} {signer : PacketSign C} {seen : Bytes} {pending : List Bytes}

/-- A faithful stream lets no drain fail. -/
theorem drain_ne_error {stream : PayloadStream C} (h : stream.Bounded)
    {answers : List WriteResult} (hfaithful : Faithful answers) (e : Failure) :
    (stream.pollDrainWriteBuffer answers).result ≠ .ready (.error e) := by
  intro he
  rcases (drainOutcome h.write answers).error e he with ⟨kind, message, -, hmem⟩ | ⟨-, hmem⟩
  · rcases hfaithful _ hmem with heq | ⟨n, -, heq⟩
    · cases heq
    · cases heq
  · rcases hfaithful _ hmem with heq | ⟨n, hn, heq⟩
    · cases heq
    · obtain rfl := WriteResult.wrote.inj heq
      exact absurd hn (Nat.lt_irrefl 0)

theorem failureOf_eq_none {α : Type} {result : Poll (Res α)}
    (h : ∀ e, result ≠ .ready (.error e)) : failureOf result = none := by
  match result, h with
  | .pending, _ => rfl
  | .ready (.ok _), _ => rfl
  | .ready (.error e), h => exact absurd rfl (h e)

/-- An allowed sending call does not fail. -/
theorem send_failure (h : w.sender.Bounded) {call : SendCall} (hallowed : w.Allowed (.send call)) :
    (w.sender.send call).failure = none := by
  cases call with
  | write buf answers =>
    exact failureOf_eq_none fun e he =>
      drain_ne_error h hallowed.1 e (pollWritePayload_error he)
  | keepalive answers =>
    exact failureOf_eq_none fun e he => drain_ne_error h hallowed e (pollQueueKeepalive_error he)
  | flush answers pollFlush =>
    refine failureOf_eq_none fun e he => ?_
    rcases pollDrainThen_error he with hdrain | hflush
    · exact drain_ne_error h hallowed.1 e hdrain
    · exact hallowed.2 e hflush
  | shutdown answers pollShutdown => exact hallowed.elim

/-- What an allowed call signs fits the peer's reader. -/
theorem send_fits {call : SendCall} (hallowed : w.Allowed (.send call)) :
    ∀ data ∈ (w.sender.send call).signed, Fits w.sender.packetSign data := by
  intro data hdata
  cases call with
  | write buf answers =>
    simp only [PayloadStream.send] at hdata
    cases hresult : (w.sender.pollWritePayload buf answers).result using Poll.resultCases with
    | pending | error e =>
      rw [hresult] at hdata
      cases hdata
    | ok n =>
      rw [hresult, signedByWrite] at hdata
      split_ifs at hdata
      · cases hdata
      · obtain rfl := Option.some.inj hdata
        exact hallowed.2
  | keepalive answers =>
    simp only [PayloadStream.send] at hdata
    cases hresult : (w.sender.pollQueueKeepalive answers).result using Poll.resultCases with
    | pending | error e =>
      rw [hresult] at hdata
      cases hdata
    | ok u =>
      rw [hresult] at hdata
      obtain rfl := Option.some.inj hdata
      exact fits_of_length_le _ (Nat.zero_le _)
  | flush answers pollFlush => cases hdata
  | shutdown answers pollShutdown => exact hallowed.elim

/-- A sending call moves bytes into the pipe, and may add a pending payload. -/
theorem InFlight.send (h : w.InFlight signer seen pending) {call : SendCall}
    (hallowed : w.Allowed (.send call)) :
    ∃ pending', (w.after V (.send call)).InFlight signer seen pending' := by
  obtain ⟨hsends, haccepted⟩ := send_spec h.senderBounded call
  have hfits := send_fits hallowed
  have hbounded := hsends.bounded h.senderBounded
  have hrec := h.receiving
  match hsigned : (w.sender.send call).signed with
  | none =>
    rw [hsigned] at hsends haccepted
    refine ⟨pending, hbounded, h.receiverBounded, ?_, ?_, ?_⟩
    · exact (Drains.packetSign hsends).trans h.signed
    · rw [hsends.unsent_eq, ← List.append_assoc] at hrec
      exact hrec
    · change w.accepted ++ (w.sender.send call).accepted = _
      rw [haccepted, h.accepted]
      exact List.append_nil _
  | some data =>
    rw [hsigned] at hsends haccepted hfits
    have hdata := hfits data rfl
    rw [h.signed] at hdata
    refine ⟨pending ++ [data], hbounded, h.receiverBounded, ?_, ?_, ?_⟩
    · rw [PacketSign.signAll, List.foldl_concat, ← PacketSign.signAll, ← h.signed]
      exact Queues.packetSign hsends
    · have hnext := hrec.concat hdata
      rw [← hsends.taken_eq, ← h.signed] at hnext
      have hunsent := Queues.unsent hsends
      rw [← hunsent] at hnext
      exact hnext
    · change w.accepted ++ (w.sender.send call).accepted = _
      rw [haccepted, h.accepted, List.flatten_append, List.flatten_singleton,
        ← List.append_assoc]
      rfl

/-- A read passes pending payloads and delivers from them; it does not fail. -/
theorem InFlight.read (hV : V.Correct C) (h : w.InFlight signer seen pending)
    {clock : ℕ → Instant} {remaining available : ℕ}
    (hallowed : w.Allowed (.read clock remaining available)) :
    w.failure V (.read clock remaining available) = none ∧
      ∃ signer' seen' pending',
        (w.after V (.read clock remaining available)).InFlight signer' seen' pending' := by
  obtain ⟨hremaining, hidle⟩ := hallowed
  have hrec := h.receiving
  -- Of what is in the pipe the call meets the first `available` bytes.
  have hcut := List.take_append_drop available w.fifo
  rw [← hcut, List.append_assoc] at hrec
  obtain ⟨out, hout, done, pending', seen', left, hpasses, hrest, hdelivered, hresult⟩ :=
    read_passes hV h.receiverBounded hrec hidle hremaining
  have hread : w.receiver.read (w.readCall V clock remaining available) = out := hout
  have hbounded := (read_sameWrite h.receiverBounded (w.readCall V clock remaining available)).2
  obtain ⟨used, hused⟩ := hpasses.used
  -- What the call has not used of them is still in front of the rest.
  have hfifo : w.fifo.drop ((w.fifo.take available).length - out.rest.length) =
      left ++ w.fifo.drop available := by
    rw [hrest, List.length_map, ← hused, List.length_append, Nat.add_sub_cancel]
    nth_rewrite 1 [← hcut]
    rw [← hused, List.append_assoc, List.drop_left]
  refine ⟨?_, signer.signAll done, seen', pending', h.senderBounded, hbounded, ?_, ?_, ?_⟩
  · rw [failure, hread]
    rcases hresult with ⟨hwait, -⟩ | ⟨bytes, hsome, -⟩
    · rw [hwait]
      rfl
    · rw [hsome]
      rfl
  · -- The payloads that the call passed are pending no more, and the receiver's counter is past
    -- them.
    rw [← PacketSign.signAll_append, ← hpasses.split]
    exact h.signed
  · have hnext := hpasses.receiving
    rw [← List.append_assoc, ← hfifo, ← hread] at hnext
    exact hnext
  · simp only [after, hread]
    rw [h.accepted, hpasses.split, List.flatten_append, ← List.append_assoc,
      List.append_assoc w.delivered, hdelivered, ← List.append_assoc]

/-- A read that is allowed delivers something, or it is pending: then it has used
all the bytes it met and everything verified has been delivered. -/
theorem InFlight.read_result (hV : V.Correct C) (h : w.InFlight signer seen pending)
    {clock : ℕ → Instant} {remaining available : ℕ}
    (hallowed : w.Allowed (.read clock remaining available)) :
    (w.receiver.read (w.readCall V clock remaining available)).result = .pending ∧
        (w.receiver.read (w.readCall V clock remaining available)).rest = [] ∧
        w.receiver.unread = [] ∨
      ∃ bytes, bytes ≠ [] ∧
        (w.receiver.read (w.readCall V clock remaining available)).result = .ready (.ok bytes) := by
  obtain ⟨hremaining, hidle⟩ := hallowed
  have hrec := h.receiving
  rw [← List.take_append_drop available w.fifo, List.append_assoc] at hrec
  obtain ⟨out, hout, done, pending', seen', left, -, hrest, hdelivered, hresult⟩ :=
    read_passes hV h.receiverBounded hrec hidle hremaining
  rw [readCall, hout]
  rcases hresult with ⟨hwait, hleft, hnone⟩ | ⟨bytes, hsome, hne⟩
  · refine .inl ⟨hwait, by rw [hrest, hleft]; rfl, ?_⟩
    rw [hwait, hnone] at hdelivered
    exact (List.append_eq_nil_iff.mp hdelivered).1
  · exact .inr ⟨bytes, hne, hsome⟩

/-- Every allowed call keeps the pipe in order and does not fail. -/
theorem InFlight.call (hV : V.Correct C) (h : w.InFlight signer seen pending) {call : PipeCall}
    (hallowed : w.Allowed call) :
    w.failure V call = none ∧
      ∃ signer' seen' pending', (w.after V call).InFlight signer' seen' pending' := by
  cases call with
  | send call =>
    obtain ⟨pending', hnext⟩ := h.send hallowed
    exact ⟨send_failure h.senderBounded hallowed, signer, seen, pending', hnext⟩
  | read clock remaining available => exact h.read hV hallowed

/-- A pipe stays in order along every run. -/
theorem InFlight.run (hV : V.Correct C) (h : w.InFlight signer seen pending) {w' : Pipe C}
    (hrun : Run V w w') : ∃ signer' seen' pending', w'.InFlight signer' seen' pending' := by
  induction hrun with
  | refl => exact ⟨signer, seen, pending, h⟩
  | tail _ hstep ih =>
    obtain ⟨signer', seen', pending', h'⟩ := ih
    obtain ⟨call, hallowed, rfl⟩ := hstep
    exact (h'.call hV hallowed).2

/-- Reads are calls, and leave the sender as it is. -/
theorem Reads.run {w' : Pipe C} (hreads : Reads V w w') : Run V w w' ∧ w'.sender = w.sender := by
  induction hreads with
  | refl => exact ⟨.refl, rfl⟩
  | tail _ hstep ih =>
    obtain ⟨clock, remaining, available, hallowed, rfl⟩ := hstep
    exact ⟨ih.1.tail ⟨_, hallowed, rfl⟩, ih.2⟩

end Steps

/-! ## Delivery -/

/-- Over a faithful pipe no call fails; every read delivers something or has used
up what it met; and once a flush has succeeded and the reader has taken all bytes
of the pipe, everything written is delivered or ready to be read. -/
theorem delivers {V : Verifier} (hV : V.Correct C) {senderKey : C.Ed25519KeyPair}
    {senderVerify : PacketVerify} {receiverSign : PacketSign C} {now : Instant} {w : Pipe C}
    (hrun : Run V (start senderKey senderVerify receiverSign now) w) :
    (∀ call, w.Allowed call → w.failure V call = none) ∧
    (∀ buf answers, buf.length ≤ 32700 → Faithful answers →
      w.Allowed (.send (.write buf answers))) ∧
    (∀ clock remaining available, w.Allowed (.read clock remaining available) →
      let read := w.receiver.read (w.readCall V clock remaining available)
      read.result = .pending ∧ read.rest = [] ∧ w.receiver.unread = [] ∨
        ∃ bytes, bytes ≠ [] ∧ read.result = .ready (.ok bytes)) ∧
    ∀ answers pollFlush, w.Allowed (.send (.flush answers pollFlush)) →
      (w.sender.pollFlushPayload answers pollFlush).result = .ready (.ok ()) →
      ∀ w', Reads V (w.after V (.send (.flush answers pollFlush))) w' → w'.fifo = [] →
        w'.delivered ++ w'.receiver.unread = w'.accepted ∧
        ∀ clock remaining available, w'.Allowed (.read clock remaining available) →
          (w'.receiver.read (w'.readCall V clock remaining available)).result = .pending →
          w'.delivered = w'.accepted := by
  obtain ⟨signer, seen, pending, h⟩ :=
    (inFlight_start senderKey senderVerify receiverSign now).run hV hrun
  refine ⟨fun call hallowed => (h.call hV hallowed).1,
    fun buf answers hlen hfaithful => ⟨hfaithful, fits_of_length_le _ hlen⟩,
    fun clock remaining available hallowed => h.read_result hV hallowed, ?_⟩
  intro answers pollFlush hallowed hflushed w' hreads hfifo
  obtain ⟨hreadsRun, hsender⟩ := hreads.run
  obtain ⟨_, _, _, hflush⟩ := (h.call hV hallowed).2
  obtain ⟨signer', seen', pending', h'⟩ := hflush.run hV hreadsRun
  -- After the flush nothing is in the write buffer, and reads do not change that.
  have hunsent : w'.sender.unsent = [] := by
    rw [hsender]
    exact (pollDrainThen_spec h.senderBounded.write answers pollFlush).2 hflushed
  have hrec := h'.receiving
  rw [hfifo, hunsent] at hrec
  -- With the pipe empty as well, no payload is pending.
  obtain rfl := hrec.eq_nil
  have haccepted : w'.delivered ++ w'.receiver.unread = w'.accepted := by
    rw [h'.accepted]
    exact (List.append_nil _).symm
  refine ⟨haccepted, fun clock remaining available hread hpending => ?_⟩
  rcases h'.read_result hV hread with ⟨-, -, hnone⟩ | ⟨bytes, -, hsome⟩
  · rw [← haccepted, hnone, List.append_nil]
  · rw [hsome] at hpending
    cases hpending

/-- A sample pipe in which a payload is written and nothing is read yet. -/
def samplePipe : Pipe Crypto.sample :=
  (start (0 : UInt8) (.sample 1) (.sample 1) 0).after .acceptAll (.send (.write [7, 8] []))

theorem delivers_sample :
    samplePipe.failure .acceptAll (.send (.flush [.wrote 5, .pending] .pending)) = none ∧
      samplePipe.failure .acceptAll (.read (fun _ => 0) 10 100) = none := by
  have hwrite : (start (C := Crypto.sample) (0 : UInt8) (.sample 1) (.sample 1) 0).Allowed
      (.send (.write [7, 8] [])) :=
    ⟨fun _ hmem => absurd hmem List.not_mem_nil, fits_of_length_le _ (by decide)⟩
  have hdelivers := delivers (Verifier.correct_acceptAll _) (.single ⟨_, hwrite, rfl⟩)
  refine ⟨hdelivers.1 _ ⟨?_, nofun⟩, hdelivers.1 _ ⟨by decide, by decide, fun _ => Nat.zero_le _⟩⟩
  intro answer hmem
  rcases List.mem_pair.mp hmem with rfl | rfl
  · exact .inr ⟨5, by decide, rfl⟩
  · exact .inl rfl

end Pipe

end Axsh

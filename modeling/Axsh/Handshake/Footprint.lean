/-
# What a peer can make a side hold

A side keeps some bytes of its peer's: those of a frame that is not complete, the messages
that a handshake still needs, and the payload that the application has not read. Each of
these is within the largest frame (`peer_memory_bounded`), whatever the peer sends and
however long it goes on.
-/

import Axsh.Client.Trace
import Axsh.Framing
import Axsh.Receivable
import Axsh.Server.Trace

set_option autoImplicit false

namespace Axsh

open Hdlc (AsyncFrameReader ReadResult Framing IsFrame)

/-- A frame reader that holds the front of a frame, or nothing. -/
def HoldsFront (reader : AsyncFrameReader) : Prop :=
  ∃ seen, reader = AsyncFrameReader.holding seen ∧ Framing seen

theorem holdsFront_new : HoldsFront .new := ⟨[], rfl, .inl rfl⟩

theorem HoldsFront.length_le {reader : AsyncFrameReader} (h : HoldsFront reader) :
    reader.frame.length ≤ Hdlc.maxFrameSize := by
  obtain ⟨seen, rfl, rfl | ⟨-, hsize⟩⟩ := h
  · exact Nat.zero_le _
  · exact hsize

/-- The message in a frame is four bytes shorter than the frame. -/
theorem length_of_decode {frame wire : Bytes} (h : Hdlc.decode frame = .ok wire) :
    wire.length + 4 ≤ frame.length ∧ frame.length ≤ Hdlc.maxFrameSize := by
  obtain ⟨hsize, interior, rfl, hscan⟩ := (Hdlc.decode_eq_ok_iff _ _).mp h
  have hlen := Hdlc.stuffing.length_le_of_scan hscan
  refine ⟨?_, hsize⟩
  simp only [List.length_append, Hdlc.length_u16ToLeBytes] at hlen
  simp only [List.length_cons, List.length_append, List.length_nil]
  omega

/-! ## Handshakes -/

namespace Task

variable {K R : Type} {P : K → Prop} {D : R → Prop}

/-- What a task holds is within the largest frame: the front of a frame that it reads, or the
rest of a message that it writes. `P` says the same of the variables at an await point, and `D`
of what is returned. -/
def Small (P : K → Prop) (D : R → Prop) : Task K R → Prop
  | .read reader k => HoldsFront reader ∧ P k
  | .write outbox next => outbox.length ≤ Hdlc.maxFrameSize ∧ next.Small P D
  | .flush next => next.Small P D
  | .done value => D value
  | .failed _ => True

/-- A task that sends a message that fits, and then waits for a frame. -/
theorem small_send {wire : Bytes} {k : K} (hsize : (Hdlc.encode wire).length ≤ Hdlc.maxFrameSize)
    (h : P k) : (send wire (.readFrame k) : Task K R).Small P D :=
  ⟨hsize, holdsFront_new, h⟩

theorem small_of_error {act : Act (Task K R)} {e : Failure} (h : act.result = .error e) :
    (ofAct act).task.Small P D := by
  rw [ofAct, h]
  trivial

theorem small_of_refuses {act : Act (Task K R)} (h : act.Refuses) : (ofAct act).task.Small P D := by
  rcases h with ⟨⟨e, hresult⟩, -⟩ | ⟨wire, ⟨e, hresult⟩, -⟩
  · exact small_of_error hresult
  · exact small_of_error hresult

/-- Every poll keeps what a task holds within the largest frame. -/
theorem Small.poll {resume : K → Bytes → Act (Task K R)}
    (hresume : ∀ k frame, P k → (ofAct (resume k frame)).task.Small P D) {task : Task K R}
    (h : task.Small P D) (answer : Answer) : (task.poll resume answer).task.Small P D := by
  unfold Task.poll
  split
  · rename_i reader k answer
    obtain ⟨⟨seen, rfl, hseen⟩, hk⟩ := h
    obtain ⟨seen', hnext, hseen', -⟩ := AsyncFrameReader.readOne_framing hseen answer
    split
    · rename_i hone
      rw [hone] at hnext
      exact ⟨⟨seen', hnext, hseen'⟩, hk⟩
    · rename_i hone
      rw [hone] at hnext
      exact ⟨⟨seen', hnext, hseen'⟩, hk⟩
    · split
      · trivial
      · exact hresume _ _ hk
  · split
    · exact h
    · trivial
    · split_ifs
      · trivial
      · exact h.2
      · refine ⟨?_, h.2⟩
        rw [List.length_drop]
        exact (Nat.sub_le _ _).trans h.1
  · split
    · exact h
    · trivial
    · exact h
  · exact h

end Task

/-- A session after some polls, each with its verdicts and clock. -/
def Session.afterPolls {K R : Type} (s : Session K R) (resume : Moment → K → Bytes → Act (Task K R))
    (polls : List (Moment × Answer)) : Session K R :=
  polls.foldl (fun s poll => s.after (resume poll.1) poll.2) s

/-- What every poll keeps holds after any number of them. -/
theorem Session.afterPolls_rule {K R : Type} {resume : Moment → K → Bytes → Act (Task K R)}
    (Inv : Session K R → Prop)
    (hstep : ∀ s moment answer, Inv s → Inv (s.after (resume moment) answer)) {s : Session K R}
    (h : Inv s) (polls : List (Moment × Answer)) : Inv (s.afterPolls resume polls) := by
  induction polls generalizing s with
  | nil => exact h
  | cons poll polls ih => exact ih (hstep s poll.1 poll.2 h)

namespace ServerConfig

variable {C : Crypto} (cfg : ServerConfig C)

theorem length_publicKeyBytes (connSign : ConnSign C) : connSign.publicKeyBytes.length = 1367 := by
  rw [ConnSign.publicKeyBytes, length_encodeConnPublicKey,
    (C.mlDsaPublicKeyDer connSign.mlDsaKeyPair).2]
  rfl

/-- A stream that a server returns. -/
def Opened (stream : ServerStream C) : Prop := stream.transport.Reachable

/-- The hello that a waiting server keeps is within the largest frame. -/
def Held (pending : ServerPending C) : Prop := pending.serverHelloWire.length ≤ Hdlc.maxFrameSize

theorem start_small : (Task.ofAct cfg.start).task.Small Held Opened := by
  rcases cfg.start_eq with ⟨⟨e, hresult⟩, -⟩ | ⟨packetSign, unique, -, -, hrun⟩
  · exact Task.small_of_error hresult
  · rw [hrun]
    refine Task.small_send (fits_helloWire _) ?_
    rw [Held, pendingAfter, helloWire, List.length_cons, length_encodeServerHello]
    decide

theorem resume_small (moment : Moment) (pending : ServerPending C) (frame : Bytes)
    (h : Held pending) : (Task.ofAct (cfg.resume moment pending frame)).task.Small Held Opened := by
  rcases cfg.resume_eq moment pending frame with
    hrefuses | hdecode | ⟨hello, publicKey, signature, hdecode, hadmits⟩
  · exact Task.small_of_refuses hrefuses
  · rw [resume_of_request hdecode]
    refine Task.small_send (Hdlc.length_encode_le_max ?_) h
    rw [List.length_cons, length_publicKeyBytes]
    decide
  · rw [resume_of_admits hdecode hadmits]
    refine ⟨Hdlc.length_encode_le_max ?_, PayloadStream.Reachable.new _ _⟩
    have hlen := cfg.connSign.length_signature cfg.coins
      (pending.serverHelloWire ++ signedHelloWire signature hello)
    have hle := connSignatureLen_le cfg.connSign.quantumInsecure
    rw [completeWire, ConnSign.signDetached, List.length_cons, hlen]
    omega

end ServerConfig

namespace ClientConfig

variable {C : Crypto} (cfg : ClientConfig C)

/-- A stream that a client returns. -/
def Opened (stream : ClientStream C) : Prop := stream.transport.Reachable

/-- The messages that a waiting client keeps are within the largest frame. So is the server's
key, unless it is one that the application's lookup gave. -/
def Held : ClientAwait C → Prop
  | .serverHello => True
  | .serverPubkey wire _ => wire.length ≤ Hdlc.maxFrameSize
  | .serverComplete pending =>
    pending.serverHelloWire.length ≤ Hdlc.maxFrameSize ∧
      pending.clientHelloWire.length ≤ Hdlc.maxFrameSize ∧
      (pending.serverConnVerify.publicKeyBundle.length ≤ Hdlc.maxFrameSize ∨
        ∃ hello, cfg.lookupServerPubkey hello =
          .ok (some pending.serverConnVerify.publicKeyBundle))

theorem length_helloWire_le (hello : ServerHello) :
    (helloWire hello).length ≤ Hdlc.maxFrameSize := by
  rw [helloWire, List.length_cons, length_encodeServerHello]
  decide

theorem onPublicKey_small (now : Instant) {wire : Bytes} (hwire : wire.length ≤ Hdlc.maxFrameSize)
    (hello : ServerHello) {publicKey : Bytes}
    (h : publicKey.length ≤ Hdlc.maxFrameSize ∨
      ∃ hello, cfg.lookupServerPubkey hello = .ok (some publicKey)) :
    (Task.ofAct (cfg.onPublicKey now wire hello publicKey)).task.Small cfg.Held Opened := by
  rcases cfg.onPublicKey_eq now wire hello publicKey with
    ⟨⟨e, hresult⟩, -⟩ | ⟨-, ⟨e, hresult⟩, -⟩ | ⟨packetSign, unique, -, -, -, -, hrun⟩
  · exact Task.small_of_error hresult
  · exact Task.small_of_error hresult
  · rw [hrun]
    have hlen := cfg.connSign.length_signature cfg.coins
      (u64ToBeBytes hello.unique ++ encodeClientHello (cfg.clientHello packetSign unique))
    have hle := connSignatureLen_le cfg.connSign.quantumInsecure
    have hanswer : (cfg.clientHelloWire hello packetSign unique).length ≤ 32765 := by
      rw [clientHelloWire, List.length_cons, List.length_append, hlen, length_encodeClientHello]
      omega
    exact Task.small_send (Hdlc.length_encode_le_max hanswer)
      ⟨hwire, hanswer.trans (by decide), h⟩

theorem resume_small (moment : Moment) (k : ClientAwait C) (frame : Bytes) (h : cfg.Held k) :
    (Task.ofAct (cfg.resume moment k frame)).task.Small cfg.Held Opened := by
  cases k with
  | serverHello =>
    rcases cfg.onServerHello_eq moment frame with
      hrefuses | ⟨hello, wire, rfl, ⟨publicKey, hlookup, hrun⟩ | ⟨-, hrun⟩⟩
    · exact Task.small_of_refuses hrefuses
    · rw [resume, hrun]
      exact cfg.onPublicKey_small moment.now (length_helloWire_le hello)
        hello (.inr ⟨hello, hlookup⟩)
    · rw [resume, hrun]
      exact Task.small_send (Hdlc.length_encode_le_max (by decide)) (length_helloWire_le hello)
  | serverPubkey wire hello =>
    -- The key that is kept came in a frame, so it is shorter than one.
    rcases receive_bind_eq moment.V frame none none cfg.connSign.quantumInsecure _ with
      hrefuses | ⟨keyWire, packet, hdecode, hwire, hrun⟩
    · exact Task.small_of_refuses hrefuses
    · cases packet with
      | serverPubkey publicKey =>
        obtain rfl := hwire
        obtain ⟨hlen, hsize⟩ := length_of_decode hdecode
        rw [List.length_cons] at hlen
        rw [resume, onServerPubkey_of_decode hdecode]
        exact cfg.onPublicKey_small moment.now h hello (.inl (by omega))
      | serverHello _ | requestServerPubkey | clientHello _ | serverComplete _ | payload _ =>
        exact Task.small_of_refuses (Act.FailsWith.refuses hrun (Act.failsWith_call _))
  | serverComplete pending =>
    rcases cfg.onServerComplete_eq moment pending frame with hrefuses | ⟨signature, -, -, hrun⟩
    · exact Task.small_of_refuses hrefuses
    · rw [resume, hrun]
      exact PayloadStream.Reachable.new _ _

end ClientConfig

/-! ## Established streams -/

namespace PayloadStream

variable {C : Crypto}

/-- What a stream holds of its peer's bytes: the front of a frame, and the payload of one,
which is shorter by two flags, the type byte, the signature and the check sequence. -/
structure SmallRead (stream : PayloadStream C) : Prop where
  reader : HoldsFront stream.frameReader
  buffer : stream.readBuffer.length + 69 ≤ Hdlc.maxFrameSize

theorem smallRead_new (packetSign : PacketSign C) (verifier : PacketVerify) :
    (new packetSign verifier).SmallRead :=
      ⟨holdsFront_new, show 0 + 69 ≤ Hdlc.maxFrameSize by decide⟩

theorem SmallRead.withReader {stream : PayloadStream C} (h : stream.SmallRead)
    {answers rest : List ReadResult} {frameReader : AsyncFrameReader}
    {result : Poll (Res (Option Bytes))}
    (hread : stream.frameReader.pollReadFrame answers = (frameReader, rest, result)) :
    { stream with frameReader }.SmallRead := by
  obtain ⟨seen, hseen, hfront⟩ := h.reader
  obtain ⟨seen', hnext, hfront', -⟩ := AsyncFrameReader.pollReadFrame_framing hfront answers
  rw [hseen] at hread
  rw [hread] at hnext
  exact ⟨⟨seen', hnext, hfront'⟩, h.buffer⟩

/-- A frame leaves a payload that is shorter than a frame, or nothing. -/
theorem SmallRead.handleFrame {stream : PayloadStream C} (h : stream.SmallRead) (V : Verifier)
    (frame : Bytes) (now later : Instant) :
    (stream.handleFrame V frame now later).1.SmallRead := by
  rcases handleFrame_eq V stream frame now later with
    ⟨data, ⟨sig, hdecode, haccepts⟩, hrun⟩ | ⟨-, e, hrun⟩
  · obtain ⟨hlen, hsize⟩ := length_of_decode hdecode
    have hsig : sig.length = 64 := haccepts.1
    rw [List.length_cons, List.length_append, hsig] at hlen
    rw [hrun]
    refine ⟨?_, ?_⟩
    · rw [received_frameReader]
      exact h.reader
    · unfold received
      split_ifs
      · exact h.buffer
      · change data.length + 69 ≤ Hdlc.maxFrameSize
        omega
  · rw [hrun]
    exact h

theorem SmallRead.fill {stream : PayloadStream C} (h : stream.SmallRead) (V : Verifier)
    (clock : ℕ → Instant) (answers : List ReadResult) :
    (stream.pollFillReadBuffer V clock answers).stream.SmallRead := by
  fun_induction pollFillReadBuffer V clock stream answers with
  | case1 clock stream answers frameReader rest hread => exact h.withReader hread
  | case2 clock stream answers frameReader rest e hread => exact h.withReader hread
  | case3 clock stream answers frameReader rest hread => exact h.withReader hread
  | case4 clock stream answers frameReader rest frame hread next result hframe =>
    have hnext := (h.withReader hread).handleFrame V frame (clock 0) (clock 1)
    rw [hframe] at hnext
    exact hnext
  | case5 clock stream answers frameReader rest frame hread next hframe ih =>
    have hnext := (h.withReader hread).handleFrame V frame (clock 0) (clock 1)
    rw [hframe] at hnext
    exact ih hnext

theorem SmallRead.copyOut {stream next : PayloadStream C} (h : stream.SmallRead) {remaining : ℕ}
    {out : Bytes} (hcopy : stream.copyOut remaining = .ok (next, out)) : next.SmallRead := by
  obtain ⟨available, -, hcopy⟩ := bind_eq_ok.mp hcopy
  obtain ⟨bytes, -, hcopy⟩ := bind_eq_ok.mp hcopy
  -- The buffer is emptied or left as it is.
  simp only at hcopy
  split_ifs at hcopy
  · obtain ⟨rfl, -⟩ := Prod.mk.inj (Except.ok.inj hcopy)
    exact ⟨h.reader, show 0 + 69 ≤ Hdlc.maxFrameSize by decide⟩
  · obtain ⟨rfl, -⟩ := Prod.mk.inj (Except.ok.inj hcopy)
    exact ⟨h.reader, h.buffer⟩

theorem SmallRead.read {stream : PayloadStream C} (h : stream.SmallRead) (call : ReadCall) :
    (stream.read call).stream.SmallRead := by
  have hfill := h.fill call.V call.clock call.answers
  rw [PayloadStream.read, pollReadPayload]
  split_ifs
  · exact h
  · simp only
    split
    · exact hfill
    · exact hfill
    · exact hfill
    · split
      · exact hfill
      · rename_i hcopy
        exact hfill.copyOut hcopy
  · simp only
    split
    · exact h
    · rename_i hcopy
      exact h.copyOut hcopy

/-- In every reachable state a stream holds no more of its peer's bytes. -/
theorem Reachable.smallRead {stream : PayloadStream C} (h : stream.Reachable) :
    stream.SmallRead := by
  induction h with
  | new packetSign verifier => exact smallRead_new packetSign verifier
  | send hstream call ih =>
    have hsame := (send_spec hstream.bounded call).1.sameRead
    exact ⟨hsame.frameReader ▸ ih.reader, hsame.readBuffer ▸ ih.buffer⟩
  | read _ call ih => exact ih.read call

/-- A stream after a call. -/
def afterCall (self : PayloadStream C) : Call → PayloadStream C
  | .send call => (self.send call).stream
  | .read call => (self.read call).stream

/-- A stream after some calls. -/
def afterCalls (self : PayloadStream C) (calls : List Call) : PayloadStream C :=
  calls.foldl afterCall self

theorem Reachable.afterCalls {stream : PayloadStream C} (h : stream.Reachable) (calls : List Call) :
    (stream.afterCalls calls).Reachable := by
  induction calls generalizing stream with
  | nil => exact h
  | cons call calls ih =>
    apply ih
    cases call with
    | send call => exact h.send call
    | read call => exact h.read call

end PayloadStream

/-! ## Memory -/

/-- Whatever a peer sends, each byte string that a side keeps of it is within the largest frame.
A handshake holds a front of a frame or the rest of its own message, and the messages it still
needs; a stream that it has returned holds, after any calls, a front of a frame and a payload. -/
theorem peer_memory_bounded {C : Crypto} (client : ClientConfig C) (server : ServerConfig C)
    (polls : List (Moment × Answer)) :
    let c := ClientConfig.session.afterPolls client.resume polls
    let s := server.session.afterPolls server.resume polls
    c.task.Small client.Held ClientConfig.Opened ∧
      s.task.Small ServerConfig.Held ServerConfig.Opened ∧
      (∀ stream calls, c.task = .done stream → (stream.transport.afterCalls calls).SmallRead) ∧
      ∀ stream calls, s.task = .done stream → (stream.transport.afterCalls calls).SmallRead := by
  intro c s
  have hstart : (ClientConfig.session : ClientSession C).task.Small client.Held
      ClientConfig.Opened := ⟨holdsFront_new, trivial⟩
  have hc : c.task.Small client.Held ClientConfig.Opened :=
    Session.afterPolls_rule (fun s => s.task.Small client.Held ClientConfig.Opened)
      (fun s moment answer h => h.poll (client.resume_small moment) answer)
      hstart polls
  have hs : s.task.Small ServerConfig.Held ServerConfig.Opened :=
    Session.afterPolls_rule (fun s => s.task.Small ServerConfig.Held ServerConfig.Opened)
      (fun s moment answer h => h.poll (server.resume_small moment) answer) server.start_small polls
  refine ⟨hc, hs, fun stream calls hdone => ?_, fun stream calls hdone => ?_⟩
  · rw [hdone] at hc
    exact (PayloadStream.Reachable.afterCalls hc calls).smallRead
  · rw [hdone] at hs
    exact (PayloadStream.Reachable.afterCalls hs calls).smallRead

end Axsh

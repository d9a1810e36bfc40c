/-
# No peer makes a side panic

A session is polled in any order, over an underlying stream that answers in any way, and
its established stream is read in any way after that. Neither side panics. For the
handshake, an invariant of tasks is kept by every poll (`Task.Safe.poll`): the two
`unreachable!` arms of the server are not reached, because the packet that is parsed has
the type byte that was peeked. For the stream, the read offset stays in its buffer, and
the packet counter counts the packets verified.
-/

import Axsh.Client.Trace
import Axsh.Handshake.Sample
import Axsh.WithoutPanic
import Axsh.ReadSide
import Axsh.Server.Trace

set_option autoImplicit false

namespace Axsh

/-- What a poll returns is no panic. -/
def Poll.NoPanic {α : Type} (x : Poll (Res α)) : Prop :=
  ∀ result, x = .ready result → result.NoPanic

/-! ## Reading -/

namespace PayloadStream

open Hdlc (AsyncFrameReader ReadResult)

variable {C : Crypto}

theorem handleFrame_noPanic {V : Verifier} {self stream : PayloadStream C} {frame : Bytes}
    {now later : Instant} {result : Res Bool}
    (h : self.handleFrame V frame now later = (stream, some result)) : result.NoPanic := by
  have hdecode := Hdlc.decode_noPanic frame
  simp only [handleFrame] at h
  -- The error that is returned is the decoder's, the parser's, or that of another packet.
  cases hframe : Hdlc.decode frame with
  | error e =>
    simp only [hframe] at h hdecode
    obtain rfl := Option.some.inj (Prod.mk.inj h).2
    exact hdecode.error
  | ok wire =>
    have hparse := Packet.deserialize_noPanic V none none (some self.peerPacketVerify) false now
      later wire
    simp only [hframe] at h
    cases hpacket : (Packet.deserialize V wire none none (some self.peerPacketVerify) false now
        later).1 with
    | error e =>
      simp only [hpacket] at h hparse
      obtain rfl := Option.some.inj (Prod.mk.inj h).2
      exact hparse.error
    | ok packet =>
      cases packet with
      | payload data =>
        simp only [hpacket] at h
        split_ifs at h
        · cases (Prod.mk.inj h).2
        · obtain rfl := Option.some.inj (Prod.mk.inj h).2
          exact noPanic_ok true
      | serverHello _ | requestServerPubkey | serverPubkey _ | clientHello _ | serverComplete _ =>
        simp only [hpacket] at h
        obtain rfl := Option.some.inj (Prod.mk.inj h).2
        exact noPanic_bail _

/-- A fill does not panic: the loop ends with the reader's result or with that of a frame. -/
theorem pollFillReadBuffer_noPanic (V : Verifier) (clock : ℕ → Instant) (self : PayloadStream C)
    (answers : List ReadResult) : (self.pollFillReadBuffer V clock answers).result.NoPanic := by
  fun_induction pollFillReadBuffer V clock self answers with
  | case1 clock self answers frameReader rest hread =>
    rintro result ⟨⟩
  | case2 clock self answers frameReader rest e hread =>
    rintro result ⟨⟩
    exact (AsyncFrameReader.pollReadFrame_noPanic hread).error
  | case3 clock self answers frameReader rest hread =>
    rintro result ⟨⟩
    exact noPanic_ok false
  | case4 clock self answers frameReader rest frame hread stream result hframe =>
    rintro result ⟨⟩
    exact handleFrame_noPanic hframe
  | case5 clock self answers frameReader rest frame hread stream hframe ih => exact ih

/-- What a copy returns, given that the offset is in its buffer. -/
theorem pollReadPayload_noPanic (V : Verifier) (clock : ℕ → Instant) {self : PayloadStream C}
    (h : self.readOffset ≤ self.readBuffer.length) (remaining : ℕ) (answers : List ReadResult) :
    (self.pollReadPayload V clock remaining answers).result.NoPanic ∧
      (deliveredBy (self.pollReadPayload V clock remaining answers).result).length ≤ remaining := by
  have hfill := pollFillReadBuffer_noPanic V clock self answers
  have hfilled := pollFillReadBuffer_bounded V clock h answers
  rw [pollReadPayload]
  split_ifs with hzero hempty
  · refine ⟨?_, Nat.zero_le _⟩
    rintro result ⟨⟩
    exact noPanic_ok []
  · cases hresult : (self.pollFillReadBuffer V clock answers).result using Poll.resultCases with
    | pending =>
      simp only [hresult]
      refine ⟨?_, Nat.zero_le _⟩
      rintro result ⟨⟩
    | error e =>
      simp only [hresult]
      refine ⟨?_, Nat.zero_le _⟩
      rintro result ⟨⟩
      exact (hfill _ hresult).error
    -- The fill kept the offset in its buffer, so the copy has bytes to cut.
    | ok filled =>
      cases filled with
      | false =>
        simp only [hresult]
        refine ⟨?_, Nat.zero_le _⟩
        rintro result ⟨⟩
        exact noPanic_ok []
      | true =>
        obtain ⟨next, hcopy, -, -, -⟩ := copyOut_eq hfilled remaining
        simp only [hresult, hcopy]
        refine ⟨?_, List.length_take_le ..⟩
        rintro result ⟨⟩
        exact noPanic_ok _
  · obtain ⟨next, hcopy, -, -, -⟩ := copyOut_eq h remaining
    simp only [hcopy]
    refine ⟨?_, List.length_take_le ..⟩
    rintro result ⟨⟩
    exact noPanic_ok _

/-- A fill moves the packet counter on by the number of packets it verifies. -/
theorem pollFillReadBuffer_verifyCounter (V : Verifier) (clock : ℕ → Instant)
    (self : PayloadStream C) (answers : List ReadResult) :
    (self.pollFillReadBuffer V clock answers).stream.peerPacketVerify.verifyCounter =
      self.peerPacketVerify.verifyCounter +
        UInt64.ofNat (self.fillVerified V clock answers).length := by
  fun_induction pollFillReadBuffer V clock self answers with
  | case1 clock self answers frameReader rest hread =>
    rw [fillVerified_nil hread (by simp)]
    exact (UInt64.add_zero _).symm
  | case2 clock self answers frameReader rest e hread =>
    rw [fillVerified_nil hread (by simp)]
    exact (UInt64.add_zero _).symm
  | case3 clock self answers frameReader rest hread =>
    rw [fillVerified_nil hread (by simp)]
    exact (UInt64.add_zero _).symm
  | case4 clock self answers frameReader rest frame hread stream result hframe =>
    rw [fillVerified_frame hread, hframe]
    rcases verifiedIn_cases V { self with frameReader } frame (clock 0) (clock 1) with
      ⟨data, hdata, hrun⟩ | ⟨hnone, e, hrun⟩
    · obtain ⟨rfl, -⟩ := Prod.mk.inj (hframe.symm.trans hrun)
      simp only [hdata, Option.toList_some, received_peerPacketVerify]
      rfl
    · obtain ⟨rfl, -⟩ := Prod.mk.inj (hframe.symm.trans hrun)
      simp only [hnone, Option.toList_none]
      exact (UInt64.add_zero _).symm
  | case5 clock self answers frameReader rest frame hread stream hframe ih =>
    rw [fillVerified_frame hread, hframe]
    rcases verifiedIn_cases V { self with frameReader } frame (clock 0) (clock 1) with
      ⟨data, hdata, hrun⟩ | ⟨hnone, e, hrun⟩
    · -- A keepalive is counted, and then the packets behind it.
      obtain ⟨rfl, -⟩ := Prod.mk.inj (hframe.symm.trans hrun)
      simp only [hdata, Option.toList_some]
      rw [ih, received_peerPacketVerify, PacketVerify.accepted_verifyCounter,
        List.length_append, List.length_singleton, UInt64.ofNat_add, UInt64.add_assoc]
      rfl
    · rw [hrun] at hframe
      cases hframe

/-- A read moves the packet counter on by the number of packets it verifies. -/
theorem read_verifyCounter {self : PayloadStream C}
    (h : self.readOffset ≤ self.readBuffer.length) (call : ReadCall) :
    (self.read call).stream.peerPacketVerify.verifyCounter =
      self.peerPacketVerify.verifyCounter + UInt64.ofNat (self.readVerified call).length := by
  -- A copy leaves the verifier alone, so the count is that of the fill.
  have hcopied : ∀ {stream : PayloadStream C}, stream.readOffset ≤ stream.readBuffer.length →
      ∃ next out, stream.copyOut call.remaining = .ok (next, out) ∧
        next.peerPacketVerify = stream.peerPacketVerify := by
    intro stream hstream
    obtain ⟨next, hcopy, hnext, -, -⟩ := copyOut_eq hstream call.remaining
    exact ⟨next, _, hcopy, by rw [hnext]⟩
  have hfill := pollFillReadBuffer_verifyCounter call.V call.clock self call.answers
  have hfilled := pollFillReadBuffer_bounded call.V call.clock h call.answers
  rw [read, pollReadPayload, readVerified]
  split_ifs with hzero hempty
  · exact (UInt64.add_zero _).symm
  · rw [← hfill]
    cases hresult : (self.pollFillReadBuffer call.V call.clock call.answers).result
      using Poll.resultCases with
    | pending | error e => simp only [hresult]
    | ok filled =>
      cases filled with
      | false => simp only [hresult]
      | true =>
        obtain ⟨next, out, hcopy, hsame⟩ := hcopied hfilled
        simp only [hresult, hcopy, hsame]
  · obtain ⟨next, out, hcopy, hsame⟩ := hcopied h
    simp only [hcopy, hsame]
    exact (UInt64.add_zero _).symm

end PayloadStream

open PayloadStream

namespace Receiver

variable {C : Crypto}

/-- The receiver after a call; only a read changes what it has seen. -/
def afterCall (w : Receiver C) : Call → Receiver C
  | .send call => { w with stream := (w.stream.send call).stream }
  | .read call => w.after call

/-- The receiver after some calls, of reads and of sending calls between them. -/
def runCalls (w : Receiver C) (calls : List Call) : Receiver C := calls.foldl afterCall w

/-- The offsets are in their buffers, and the packet counter has counted the packets that
were verified. -/
structure Counts (w : Receiver C) : Prop where
  bounded : w.stream.Bounded
  counter : w.stream.peerPacketVerify.verifyCounter = UInt64.ofNat w.verified.length

theorem Counts.after {w : Receiver C} (h : w.Counts) (call : ReadCall) : (w.after call).Counts := by
  refine ⟨(read_sameWrite h.bounded call).2, ?_⟩
  have hread := read_verifyCounter h.bounded.read call
  rw [h.counter, ← UInt64.ofNat_add, ← List.length_append] at hread
  exact hread

theorem Counts.afterCall {w : Receiver C} (h : w.Counts) (call : Call) :
    (w.afterCall call).Counts := by
  cases call with
  | send call =>
    have hsends := (send_spec h.bounded call).1
    refine ⟨hsends.bounded h.bounded, ?_⟩
    exact (congrArg PacketVerify.verifyCounter hsends.sameRead.peerPacketVerify).trans h.counter
  | read call => exact h.after call

theorem Counts.runCalls {w : Receiver C} (h : w.Counts) (calls : List Call) :
    (w.runCalls calls).Counts := by
  induction calls generalizing w with
  | nil => exact h
  | cons call calls ih => exact ih (h.afterCall call)

end Receiver

namespace PayloadStream

variable {C : Crypto}

/-- Whatever calls came before, a read returns: it does not panic, it puts no more bytes
into the caller's buffer than there is room for, and while fewer than 2^64 packets are
verified the packet counter is their number, so that counting them has not overflowed. -/
def ReadsReturn (stream : PayloadStream C) : Prop :=
  ∀ (calls : List Call) (call : ReadCall),
    let w := (Receiver.mk stream [] []).runCalls calls
    (w.stream.read call).result.NoPanic ∧
      (deliveredBy (w.stream.read call).result).length ≤ call.remaining ∧
      ((w.after call).verified.length < 2 ^ 64 →
        (w.after call).stream.peerPacketVerify.verifyCounter.toNat = (w.after call).verified.length)

theorem readsReturn_new (packetSign : PacketSign C) (publicKey : Fixed ed25519PublicKeyLen)
    (now : Instant) : (new packetSign (.new publicKey now)).ReadsReturn := by
  intro calls call w
  have hstart : (Receiver.mk (new packetSign (.new publicKey now)) [] []).Counts :=
    ⟨bounded_new _ _, rfl⟩
  have hw : w.Counts := hstart.runCalls calls
  obtain ⟨hreturns, hroom⟩ := pollReadPayload_noPanic call.V call.clock hw.bounded.read
    call.remaining call.answers
  refine ⟨hreturns, hroom, fun hcount => ?_⟩
  rw [(hw.after call).counter, UInt64.toNat_ofNat']
  exact Nat.mod_eq_of_lt hcount

end PayloadStream

/-! ## Polling -/

/-- An answer of the underlying stream that is no panic. -/
def Answer.NoPanic : Answer → Prop
  | .flush result => result.NoPanic
  | .read _ | .write _ => True

section Safe

variable {K R : Type} {I : K → Prop} {D : R → Prop}

/-- A task that has not panicked, with `I` of its await point and `D` of what it returns. -/
def Task.Safe (I : K → Prop) (D : R → Prop) : Task K R → Prop
  | .read _ k => I k
  | .write _ next => next.Safe I D
  | .flush next => next.Safe I D
  | .done value => D value
  | .failed e => Res.NoPanic (.error e : Res R)

/-- A computation that ends in such a task. -/
def Act.Safe (I : K → Prop) (D : R → Prop) (act : Act (Task K R)) : Prop :=
  (Task.ofAct act).task.Safe I D

theorem Act.safe_call {x : Res (Task K R)} (hx : x.NoPanic)
    (h : ∀ task, x = .ok task → task.Safe I D) :
    (Act.call x).Safe I D := by
  cases x with
  | ok task => exact h task rfl
  | error e => exact hx.error

theorem Act.safe_bail (message : String) : (Act.call (bail message) : Act (Task K R)).Safe I D :=
  Act.safe_call (noPanic_bail message) fun _ h => absurd h (bail_ne_ok _ _)

theorem Act.Safe.call_bind {α : Type} {x : Res α} {f : α → Act (Task K R)} (hx : x.NoPanic)
    (hf : ∀ a, x = .ok a → (f a).Safe I D) : (Act.call x >>= f).Safe I D := by
  cases x with
  | ok a => exact hf a rfl
  | error e => exact hx.error

theorem Act.Safe.record_bind {event : Event} {f : Unit → Act (Task K R)} (hf : (f ()).Safe I D) :
    (Act.record event >>= f).Safe I D := hf

/-- Receiving a frame does not panic. -/
theorem Act.Safe.receive_bind {V : Verifier} {frame : Bytes} {serverUnique? : Option UInt64}
    {connVerifier? : Option ConnVerify} {quantumInsecure : Bool}
    {f : Bytes × Packet → Act (Task K R)} (hf : ∀ wire packet, (f (wire, packet)).Safe I D) :
    (receive V frame serverUnique? connVerifier? quantumInsecure >>= f).Safe I D := by
  have hdecode := Hdlc.decode_noPanic frame
  unfold receive
  cases hframe : Hdlc.decode frame with
  | error e =>
    rw [hframe] at hdecode
    exact hdecode.error
  | ok wire =>
    have hparse := Packet.deserialize_noPanic V serverUnique? connVerifier? none quantumInsecure 0 0
      wire
    rw [Act.call_ok_bind]
    cases hpacket : (Packet.deserialize V wire serverUnique? connVerifier? none quantumInsecure 0
        0).1 with
    | error e =>
      rw [hpacket] at hparse
      exact hparse.error
    | ok packet => exact hf wire packet

/-- Every poll keeps a task safe, if going on from an await point does. -/
theorem Task.Safe.poll {resume : K → Bytes → Act (Task K R)}
    (hresume : ∀ k frame, I k → (resume k frame).Safe I D) {task : Task K R} (h : task.Safe I D)
    {answer : Answer} (hanswer : answer.NoPanic) : (task.poll resume answer).task.Safe I D := by
  unfold Task.poll
  split
  · split
    · exact h
    · exact h
    · rename_i hread
      -- The reader's result is a frame to go on with, or an error to fail with.
      have hframe := Hdlc.frameOrEof_noPanic (Hdlc.AsyncFrameReader.readOne_noPanic hread)
      split
      · rename_i e he
        rw [he] at hframe
        exact hframe.error
      · exact hresume _ _ h
  · split
    · exact h
    · exact noPanic_error _ _
    · split_ifs
      · exact noPanic_error _ _
      · exact h
      · exact h
  · split
    · exact h
    · exact (hanswer _ rfl).error
    · exact h
  · exact h

end Safe

namespace Session

variable {K R : Type}

/-- One poll, at any moment, with any answer of the underlying stream. -/
def Polls (resume : Moment → K → Bytes → Act (Task K R)) (s s' : Session K R) : Prop :=
  ∃ moment answer, answer.NoPanic ∧ s' = s.after (resume moment) answer

/-- The session has not panicked. -/
def NoPanic (s : Session K R) : Prop := ∀ message, s.task ≠ .failed (.panic message)

/-- Any polls keep a session safe. -/
theorem safe_of_polls {I : K → Prop} {D : R → Prop} {resume : Moment → K → Bytes → Act (Task K R)}
    (hresume : ∀ moment k frame, I k → (resume moment k frame).Safe I D) {s s' : Session K R}
    (hs : s.task.Safe I D) (hpolls : Relation.ReflTransGen (Polls resume) s s') :
    s'.task.Safe I D := by
  induction hpolls with
  | refl => exact hs
  | tail _ hpoll ih =>
    obtain ⟨moment, answer, hanswer, rfl⟩ := hpoll
    exact ih.poll (hresume moment) hanswer

theorem noPanic_of_safe {I : K → Prop} {D : R → Prop} {s : Session K R} (h : s.task.Safe I D) :
    s.NoPanic := by
  intro message htask
  rw [htask] at h
  exact h message rfl

/-- What a safe session ends with satisfies what is known of its results. -/
theorem of_done_of_safe {I : K → Prop} {D : R → Prop} {s : Session K R} (h : s.task.Safe I D)
    {result : R} (hdone : s.task = .done result) : D result := by
  rw [hdone] at h
  exact h

end Session

/-! ## The server -/

namespace ServerConfig

variable {C : Crypto} (cfg : ServerConfig C)

/-- Key generation and the random number generator return. -/
structure Returns : Prop where
  newPacketSign : cfg.newPacketSign.NoPanic
  randomU64 : cfg.randomU64.NoPanic

/-- A server's stream is new when it is established. -/
def Fresh (stream : ServerStream C) : Prop :=
  ∃ packetSign publicKey now, stream.transport = .new packetSign (.new publicKey now)

/-- A server task that has not panicked. -/
abbrev SafeAct (act : Act (ServerTask C)) : Prop := act.Safe (fun _ => True) Fresh

variable {cfg}

theorem Returns.start_safe (h : cfg.Returns) : SafeAct cfg.start :=
  Act.Safe.call_bind h.newPacketSign fun _ _ => Act.Safe.call_bind h.randomU64 fun _ _ => trivial

/-- The `unreachable!` of a request is not reached: the packet has the type that was peeked. -/
theorem onRequest_safe (moment : Moment) (pending : ServerPending C) (rest : Bytes) :
    SafeAct (cfg.onRequest moment pending (packetTypeRequestServerPubkey :: rest)) := by
  refine Act.Safe.call_bind (Packet.deserialize_noPanic _ _ _ _ _ _ _ _) fun packet hpacket => ?_
  have hwire := Packet.isWire_of_deserialize _ _ _ _ _ _ 0 hpacket
  obtain rfl := Packet.eq_requestServerPubkey_of_typeByte hwire.typeByte_eq
  trivial

/-- Nor is that of a client hello. -/
theorem onClientHello_safe (moment : Moment) (pending : ServerPending C) (rest : Bytes) :
    SafeAct (cfg.onClientHello moment pending (packetTypeClientHello :: rest)) := by
  refine Act.Safe.call_bind (Packet.peekClientHello_noPanic _ _) fun peeked _ => ?_
  match cfg.authorizedKeys peeked.connSignPublicKeySha256 with
  | none => exact Act.safe_bail _
  | some publicKey =>
    refine Act.Safe.call_bind (Packet.deserialize_noPanic _ _ _ _ _ _ _ _) fun packet hpacket => ?_
    have hwire := Packet.isWire_of_deserialize _ _ _ _ _ _ 0 hpacket
    obtain ⟨hello, rfl⟩ := Packet.exists_clientHello_of_typeByte hwire.typeByte_eq
    exact ⟨pending.packetSign, hello.packetSignPublicKey, moment.now, rfl⟩

theorem resume_safe (moment : Moment) (pending : ServerPending C) (frame : Bytes) :
    SafeAct (cfg.resume moment pending frame) := by
  refine Act.Safe.call_bind (Hdlc.decode_noPanic frame) fun wire _ => ?_
  apply Act.Safe.record_bind
  refine Act.Safe.call_bind (Packet.peekType_noPanic wire) fun packetType htype => ?_
  match wire, htype with
  | _ :: rest, rfl =>
    split_ifs with hrequest hhello
    · subst hrequest
      exact onRequest_safe moment pending rest
    · subst hhello
      exact onClientHello_safe moment pending rest
    · exact Act.safe_bail _

end ServerConfig

/-! ## The client -/

namespace ClientConfig

variable {C : Crypto} (cfg : ClientConfig C)

/-- Key generation, the random number generator and the callbacks return. -/
structure Returns : Prop where
  lookupServerPubkey : ∀ hello, (cfg.lookupServerPubkey hello).NoPanic
  acceptServerPubkey : ∀ hello publicKey, (cfg.acceptServerPubkey hello publicKey).NoPanic
  newPacketSign : cfg.newPacketSign.NoPanic
  randomU64 : cfg.randomU64.NoPanic

/-- The packet verifier that a waiting client holds is new. -/
def Waits : ClientAwait C → Prop
  | .serverComplete pending => ∃ publicKey now, pending.serverPacketVerify = .new publicKey now
  | .serverHello | .serverPubkey _ _ => True

/-- A client's stream is new when it is established. -/
def Fresh (stream : ClientStream C) : Prop :=
  ∃ packetSign publicKey now, stream.transport = .new packetSign (.new publicKey now)

/-- A client task that has not panicked. -/
abbrev SafeAct (act : Act (ClientTask C)) : Prop := act.Safe Waits Fresh

variable {cfg}

theorem Returns.onPublicKey_safe (h : cfg.Returns) (now : Instant) (wire : Bytes)
    (hello : ServerHello) (publicKey : Bytes) :
    SafeAct (cfg.onPublicKey now wire hello publicKey) := by
  refine Act.Safe.call_bind (noPanic_ensure _) fun _ _ => ?_
  apply Act.Safe.record_bind
  refine Act.Safe.call_bind (h.acceptServerPubkey hello publicKey) fun _ _ => ?_
  refine Act.Safe.call_bind h.newPacketSign fun packetSign _ => ?_
  refine Act.Safe.call_bind h.randomU64 fun unique _ => ?_
  -- A client hello is what this serializer is for.
  refine Act.Safe.call_bind (noPanic_ok _) fun _ _ => ?_
  refine Act.Safe.record_bind (Act.Safe.record_bind ?_)
  exact ⟨hello.packetSignPublicKey, now, rfl⟩

theorem Returns.resume_safe (h : cfg.Returns) (moment : Moment) (k : ClientAwait C) (frame : Bytes)
    (hk : Waits k) : SafeAct (cfg.resume moment k frame) := by
  cases k with
  | serverHello =>
    refine Act.Safe.receive_bind fun wire packet => ?_
    cases packet with
    | serverHello hello =>
      refine Act.Safe.call_bind (h.lookupServerPubkey hello) fun answer _ => ?_
      apply Act.Safe.record_bind
      cases answer with
      | some publicKey => exact h.onPublicKey_safe moment.now wire hello publicKey
      | none => trivial
    | requestServerPubkey | serverPubkey _ | clientHello _ | serverComplete _ | payload _ =>
      exact Act.safe_bail _
  | serverPubkey wire hello =>
    refine Act.Safe.receive_bind fun _ packet => ?_
    cases packet with
    | serverPubkey publicKey => exact h.onPublicKey_safe moment.now wire hello publicKey
    | requestServerPubkey | serverHello _ | clientHello _ | serverComplete _ | payload _ =>
      exact Act.safe_bail _
  | serverComplete pending =>
    refine Act.Safe.receive_bind fun _ packet => ?_
    -- Here the signature is checked, and the verifier that is kept is the new one of the await
    -- point.
    cases packet with
    | serverComplete signature =>
      refine Act.Safe.call_bind (ConnVerify.verifyDetached_noPanic _ _ _ _) fun verified _ => ?_
      refine Act.Safe.call_bind (noPanic_ensure _) fun _ _ => ?_
      obtain ⟨publicKey, now, hnew⟩ := hk
      exact ⟨pending.packetSign, publicKey, now, congrArg (PayloadStream.new _) hnew⟩
    | requestServerPubkey | serverHello _ | clientHello _ | serverPubkey _ | payload _ =>
      exact Act.safe_bail _

end ClientConfig

/-! ## Both sides -/

/-- Nothing that a peer sends, before, during or after the handshake, makes a side panic:
however a session is polled and whatever its underlying stream answers, the handshake is
waiting, has failed with an error, or has established a stream that can be read from in any
way. -/
theorem peer_cannot_panic {C : Crypto} (server : ServerConfig C) (client : ClientConfig C)
    (hserver : server.Returns) (hclient : client.Returns) :
    (∀ s, Relation.ReflTransGen (Session.Polls server.resume) server.session s →
      s.NoPanic ∧ ∀ stream, s.task = .done stream → stream.transport.ReadsReturn) ∧
    (∀ s, Relation.ReflTransGen (Session.Polls client.resume) ClientConfig.session s →
      s.NoPanic ∧ ∀ stream, s.task = .done stream → stream.transport.ReadsReturn) := by
  refine ⟨fun s hpolls => ?_, fun s hpolls => ?_⟩
  · have hstart : server.session.task.Safe (fun _ => True) ServerConfig.Fresh := hserver.start_safe
    -- The polls keep the invariant, and an established stream is a new one, so its reads return.
    have hsafe := Session.safe_of_polls
      (fun moment k frame _ => ServerConfig.resume_safe moment k frame) hstart hpolls
    refine ⟨Session.noPanic_of_safe hsafe, fun stream hdone => ?_⟩
    obtain ⟨packetSign, publicKey, now, hnew⟩ := Session.of_done_of_safe hsafe hdone
    rw [hnew]
    exact PayloadStream.readsReturn_new packetSign publicKey now
  · have hstart : (ClientConfig.session : ClientSession C).task.Safe ClientConfig.Waits
        ClientConfig.Fresh := trivial
    have hsafe := Session.safe_of_polls hclient.resume_safe hstart hpolls
    refine ⟨Session.noPanic_of_safe hsafe, fun stream hdone => ?_⟩
    obtain ⟨packetSign, publicKey, now, hnew⟩ := Session.of_done_of_safe hsafe hdone
    rw [hnew]
    exact PayloadStream.readsReturn_new packetSign publicKey now

/-! ## Sample sessions that return -/

section Sample

variable {K R : Type}

/-- Answers that bring no panic make a run of polls. -/
theorem Session.polls_afterAll {resume : Moment → K → Bytes → Act (Task K R)} (moment : Moment)
    {answers : List Answer} (hanswers : ∀ answer ∈ answers, answer.NoPanic) {s s' : Session K R}
    (hafter : s.afterAll (resume moment) answers = s') :
    Relation.ReflTransGen (Session.Polls resume) s s' := by
  subst hafter
  induction answers generalizing s with
  | nil => exact .refl
  | cons answer answers ih =>
    obtain ⟨hfirst, hrest⟩ := List.forall_mem_cons.mp hanswers
    exact .head ⟨moment, answer, hfirst, rfl⟩ (ih hrest)

theorem noPanic_frameAnswers (wire : Bytes) : ∀ answer ∈ frameAnswers wire, answer.NoPanic := by
  intro answer hanswer
  obtain ⟨byte, -, rfl⟩ := List.mem_map.mp hanswer
  trivial

theorem noPanic_sendAnswers (wire : Bytes) : ∀ answer ∈ sendAnswers wire, answer.NoPanic := by
  simp [sendAnswers, Answer.NoPanic, Poll.NoPanic, noPanic_ok]

end Sample

/-- A server and a client of the sample library, each with all the messages of its peer. Both
return, and their streams can be read from. -/
theorem peer_cannot_panic_sample :
    (∃ s stream, Relation.ReflTransGen
        (Session.Polls (ServerConfig.sample 2 7 (ConnSign.sample 1).publicKeyBytes).resume)
        (ServerConfig.sample 2 7 (ConnSign.sample 1).publicKeyBytes).session s ∧
      s.task = .done stream ∧ stream.transport.ReadsReturn) ∧
    (∃ s stream, Relation.ReflTransGen
        (Session.Polls (ClientConfig.sample 1 (ConnSign.sample 2).publicKeyBytes).resume)
        ClientConfig.session s ∧
      s.task = .done stream ∧ stream.transport.ReadsReturn) := by
  let server := ServerConfig.sample 2 7 (ConnSign.sample 1).publicKeyBytes
  let client := ClientConfig.sample 1 (ConnSign.sample 2).publicKeyBytes
  have hserver : server.Returns := ⟨noPanic_ok _, noPanic_ok _⟩
  have hclient : client.Returns :=
    ⟨fun _ => noPanic_ok _, fun _ _ => noPanic_ok _, noPanic_ok _, noPanic_ok _⟩
  obtain ⟨hs, hc⟩ := peer_cannot_panic server client hserver hclient
  constructor
  · -- The server sends its hello, and then it gets the client's and accepts it.
    have hstarted : server.Started (.sample 2) 7 := ⟨rfl, rfl⟩
    let hello := client.clientHello (.sample 1) 0
    have hadmits : server.Admits .acceptAll 7 hello (ConnSign.sample 1).publicKeyBytes
        ((ConnSign.sample 1).signature [] (u64ToBeBytes 7 ++ encodeClientHello hello)) :=
      ⟨ServerConfig.sample_authorizedKeys .., (ConnSign.sample 1).accepts_signature
        (Verifier.correct_acceptAll _) [] _⟩
    have hsent := Session.polls_afterAll _ (noPanic_sendAnswers _)
      (ServerConfig.afterAll_hello hstarted ⟨.acceptAll, 0⟩)
    have hpolls := hsent.trans (Session.polls_afterAll _ (List.forall_mem_append.mpr
      ⟨noPanic_frameAnswers _, noPanic_sendAnswers _⟩)
      (ServerConfig.afterAll_accept
        (show server.Admits (Moment.mk .acceptAll 0).V (server.pendingAfter (.sample 2) 7).unique
          _ _ _ from hadmits) _ _))
    exact ⟨_, _, hpolls, rfl, (hs _ hpolls).2 _ rfl⟩
  · have hlen := (ConnSign.sample 2).length_signature [] []
    have hverified : client.Verified .acceptAll (sampleHello 2 7) (ConnSign.sample 2).publicKeyBytes
        (.sample 1) 0 ((ConnSign.sample 2).signature [] []) :=
      ⟨hlen, (ConnVerify.verifyDetached_eq_true_iff_accepts _ hlen _).mpr
        ⟨hlen, _, _, (ConnSign.sample 2).decode_publicKeyBytes, fun _ => rfl, rfl⟩⟩
    have hlookup : client.lookupServerPubkey (sampleHello 2 7) =
        .ok (some (ConnSign.sample 2).publicKeyBytes) := rfl
    have hdigest : (sampleHello 2 7).connSignPublicKeySha256 =
        Crypto.sample.sha256 (ConnSign.sample 2).publicKeyBytes := rfl
    have haccept : client.acceptServerPubkey (sampleHello 2 7) (ConnSign.sample 2).publicKeyBytes =
        .ok () := rfl
    have hestablished := ClientConfig.afterAll_established ⟨.acceptAll, 0⟩ hlookup hdigest haccept
      rfl rfl hverified
    have hpolls := Session.polls_afterAll _ (List.forall_mem_append.mpr
      ⟨List.forall_mem_append.mpr ⟨noPanic_frameAnswers _, noPanic_sendAnswers _⟩,
        noPanic_frameAnswers _⟩) hestablished
    exact ⟨_, _, hpolls, rfl, (hc _ hpolls).2 _ rfl⟩

end Axsh

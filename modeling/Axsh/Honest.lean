/-
# The honest handshake

An honest client and an honest server over a faithful stream. At each moment one
message is on its way, and the stages of the handshake are the messages; the client
asks for the server's key or not, as its lookup has it. Neither side fails in any
stage, and when both have returned, the streams hold what the applications have
written since, and nothing has been read of it.
-/

import Axsh.Client.Trace
import Axsh.Handshake.Phase
import Axsh.Handshake.Sample
import Axsh.Server.Trace

set_option autoImplicit false

namespace Axsh

/-- The two sides of a handshake, the bytes on their way in both directions, and what
the applications have written behind the handshake. -/
structure Pair (C : Crypto) where
  client : ClientTask C
  server : ServerTask C
  toServer : Bytes
  toClient : Bytes
  clientPayload : Bytes
  serverPayload : Bytes

namespace Pair

variable {C : Crypto}

/-- Both sides begin. -/
def start (sc : ServerConfig C) : Pair C where
  client := ClientConfig.start
  server := (Task.ofAct sc.start).task
  toServer := []
  toClient := []
  clientPayload := []
  serverPayload := []

/-- A poll of the client took its place: `rest` is left for it to read. -/
def afterClient (w : Pair C) (polled : Polled (ClientAwait C) (ClientStream C)) (rest : Bytes) :
    Pair C :=
  { w with client := polled.task, toClient := rest, toServer := w.toServer ++ polled.taken }

/-- A poll of the server took its place. -/
def afterServer (w : Pair C) (polled : Polled (ServerPending C) (ServerStream C)) (rest : Bytes) :
    Pair C :=
  { w with server := polled.task, toServer := rest, toClient := w.toClient ++ polled.taken }

/-- A poll of either side, or a write by an application whose side has returned. -/
inductive Step (cc : ClientConfig C) (sc : ServerConfig C) (V : Verifier) (w : Pair C) :
    Pair C → Prop
  | client (now : Instant) (answer : Answer) (rest : Bytes)
      (h : Faithful w.toClient w.client answer rest) :
      Step cc sc V w (w.afterClient (w.client.poll (cc.resume ⟨V, now⟩) answer) rest)
  | server (now : Instant) (answer : Answer) (rest : Bytes)
      (h : Faithful w.toServer w.server answer rest) :
      Step cc sc V w (w.afterServer (w.server.poll (sc.resume ⟨V, now⟩) answer) rest)
  | clientWrites (stream : ClientStream C) (h : w.client = .done stream) (bytes : Bytes) :
      Step cc sc V w { w with
        toServer := w.toServer ++ bytes, clientPayload := w.clientPayload ++ bytes }
  | serverWrites (stream : ServerStream C) (h : w.server = .done stream) (bytes : Bytes) :
      Step cc sc V w { w with
        toClient := w.toClient ++ bytes, serverPayload := w.serverPayload ++ bytes }

/-- Any number of steps. -/
abbrev Run (cc : ClientConfig C) (sc : ServerConfig C) (V : Verifier) (w : Pair C) :
    Pair C → Prop :=
  Relation.ReflTransGen (Step cc sc V) w

end Pair

/-- A client and a server, with the packet keys and the challenge values that their
environments give them. -/
structure Setting (C : Crypto) where
  client : ClientConfig C
  server : ServerConfig C
  clientSign : PacketSign C
  serverSign : PacketSign C
  clientUnique : UInt64
  serverUnique : UInt64

namespace Setting

variable {C : Crypto} (given : Setting C)

def serverHello : ServerHello := given.server.serverHello given.serverSign given.serverUnique

def clientHello : ClientHello := given.client.clientHello given.clientSign given.clientUnique

/-- The variables of the server that has sent its hello. -/
def serverPending : ServerPending C := given.server.pendingAfter given.serverSign given.serverUnique

/-- The variables of the client that has answered that hello. -/
def clientPending (now : Instant) : ClientPending C :=
  given.client.pendingAfter now (helloWire given.serverHello) given.serverHello
    given.server.connSign.publicKeyBytes given.clientSign given.clientUnique

/-- The client's signature, and its hello behind it. -/
def signature : Bytes :=
  given.client.connSign.signature given.client.coins
    (u64ToBeBytes given.serverUnique ++ encodeClientHello given.clientHello)

def answerWire : Bytes := signedHelloWire given.signature given.clientHello

/-- The message with the server's signature. -/
def completeWire : Bytes := given.server.completeWire given.serverPending given.answerWire

/-- The connections that the two sides return. -/
def clientReturns (now : Instant) : ClientStream C :=
  ClientConfig.established (given.clientPending now)

def serverReturns (now : Instant) : ServerStream C :=
  ServerConfig.established now given.serverPending given.clientHello

/-- The two can agree: they have one mode, the server authorizes the client's key under
its digest, the client's lookup knows the server's key or none, and its application
accepts that key. -/
structure Honest (V : Verifier) : Prop where
  correct : V.Correct C
  mode : given.client.connSign.quantumInsecure = given.server.connSign.quantumInsecure
  newPacketSign : given.client.newPacketSign = .ok given.clientSign
  randomU64 : given.client.randomU64 = .ok given.clientUnique
  started : given.server.Started given.serverSign given.serverUnique
  authorized : given.server.authorizedKeys (C.sha256 given.client.connSign.publicKeyBytes) =
    some given.client.connSign.publicKeyBytes
  accepts : given.client.acceptServerPubkey given.serverHello given.server.connSign.publicKeyBytes =
    .ok ()
  lookup : given.client.lookupServerPubkey given.serverHello = .ok none ∨
    given.client.lookupServerPubkey given.serverHello =
      .ok (some given.server.connSign.publicKeyBytes)

/-! ## The stages -/

/-- The applications have written nothing. -/
def Quiet (w : Pair C) : Prop := w.clientPayload = [] ∧ w.serverPayload = []

/-- The stages of a handshake, by the message that is on its way. -/
inductive Stage (w : Pair C) : Prop
  /-- The server sends its hello. -/
  | hello (passing : Passing (helloWire given.serverHello) [] (.readFrame given.serverPending)
        ClientAwait.serverHello w.server w.client w.toClient)
      (back : w.toServer = []) (quiet : Quiet w) : Stage w
  /-- The client requests the server's key. -/
  | request (passing : Passing [packetTypeRequestServerPubkey] []
        (.readFrame (.serverPubkey (helloWire given.serverHello) given.serverHello))
        given.serverPending w.client w.server w.toServer)
      (back : w.toClient = []) (quiet : Quiet w) : Stage w
  /-- The server sends its key. -/
  | pubkey (passing : Passing (packetTypeServerPubkey :: given.server.connSign.publicKeyBytes) []
        (.readFrame given.serverPending)
        (.serverPubkey (helloWire given.serverHello) given.serverHello) w.server w.client
        w.toClient)
      (back : w.toServer = []) (quiet : Quiet w) : Stage w
  /-- The client sends its hello. -/
  | answer (now : Instant)
      (passing : Passing given.answerWire []
        (.readFrame (.serverComplete (given.clientPending now))) given.serverPending w.client
        w.server w.toServer)
      (back : w.toClient = []) (quiet : Quiet w) : Stage w
  /-- The server sends its signature, and then what its application writes. -/
  | complete (now serverNow : Instant)
      (passing : Passing given.completeWire w.serverPayload (.done (given.serverReturns serverNow))
        (.serverComplete (given.clientPending now)) w.server w.client w.toClient)
      (back : w.toServer = []) (quiet : w.clientPayload = []) : Stage w
  /-- The client has returned; the server may have to flush. -/
  | returned (now serverNow : Instant) (client : w.client = .done (given.clientReturns now))
      (server : Sending (.done (given.serverReturns serverNow)) w.server [])
      (toClient : w.toClient = w.serverPayload) (toServer : w.toServer = w.clientPayload) : Stage w

variable {given} {V : Verifier} {w : Pair C}

namespace Honest

/-- The server admits the client's hello. -/
theorem admits (h : given.Honest V) :
    given.server.Admits V given.serverUnique given.clientHello given.client.connSign.publicKeyBytes
      given.signature := by
  have hverifier : given.server.connSign.peerVerifier given.client.connSign.publicKeyBytes =
      given.client.connSign.verifier := by
    rw [ConnSign.peerVerifier, ConnSign.verifier, h.mode]
  refine ⟨h.authorized, ?_⟩
  rw [hverifier]
  exact given.client.connSign.accepts_signature h.correct _ _

theorem length_signDetached (h : given.Honest V) (coins transcript : Bytes) :
    (given.server.connSign.signDetached coins transcript).length =
      connSignatureLen given.client.connSign.quantumInsecure := by
  rw [h.mode]
  exact given.server.connSign.length_signature coins transcript

/-- The client verifies a signature of the server. -/
theorem verified (h : given.Honest V) (coins transcript : Bytes) :
    (given.client.connSign.peerVerifier given.server.connSign.publicKeyBytes).verifyDetached V
      (given.server.connSign.signDetached coins transcript) transcript = .ok true := by
  have hverifier : given.client.connSign.peerVerifier given.server.connSign.publicKeyBytes =
      given.server.connSign.verifier := by
    rw [ConnSign.peerVerifier, ConnSign.verifier, h.mode]
  apply (ConnVerify.verifyDetached_eq_true_iff_accepts V (h.length_signDetached _ _) _).mpr
  rw [hverifier]
  exact given.server.connSign.accepts_signature h.correct _ _

/-! ### What each side does with each message -/

/-- With the server's key, the client sends its hello. -/
theorem onPublicKey_eq (h : given.Honest V) (now : Instant) :
    given.client.onPublicKey now (helloWire given.serverHello) given.serverHello
        given.server.connSign.publicKeyBytes =
      ⟨given.client.answerEvents given.serverHello given.server.connSign.publicKeyBytes
          given.clientSign given.clientUnique,
        .ok (.send given.answerWire (.readFrame (.serverComplete (given.clientPending now))))⟩ :=
  ClientConfig.onPublicKey_of_accepted rfl h.accepts h.newPacketSign h.randomU64

/-- With the server's hello, the client requests the key, or sends its hello. -/
theorem onServerHello_task (h : given.Honest V) (now : Instant) :
    (Task.ofAct (given.client.resume ⟨V, now⟩ .serverHello
        (Hdlc.encode (helloWire given.serverHello)))).task =
      .send [packetTypeRequestServerPubkey]
        (.readFrame (.serverPubkey (helloWire given.serverHello) given.serverHello)) ∨
    (Task.ofAct (given.client.resume ⟨V, now⟩ .serverHello
        (Hdlc.encode (helloWire given.serverHello)))).task =
      .send given.answerWire (.readFrame (.serverComplete (given.clientPending now))) := by
  have hdecode := Hdlc.decode_encode (fits_helloWire given.serverHello)
  rcases h.lookup with hlookup | hlookup
  · left
    rw [ClientConfig.resume, ClientConfig.onServerHello_of_none hdecode hlookup]
    rfl
  · right
    rw [ClientConfig.resume, ClientConfig.onServerHello_of_some hdecode hlookup, ← helloWire,
      h.onPublicKey_eq now]
    rfl

theorem fits_pubkey (connSign : ConnSign C) :
    (Hdlc.encode (packetTypeServerPubkey :: connSign.publicKeyBytes)).length ≤
      Hdlc.maxFrameSize := by
  apply Hdlc.length_encode_le_max
  rw [List.length_cons, ConnSign.publicKeyBytes, length_encodeConnPublicKey,
    (C.mlDsaPublicKeyDer connSign.mlDsaKeyPair).2]
  decide

/-- With the server's key, requested, the client sends its hello. -/
theorem onServerPubkey_task (h : given.Honest V) (now : Instant) :
    (Task.ofAct (given.client.resume ⟨V, now⟩
        (.serverPubkey (helloWire given.serverHello) given.serverHello)
        (Hdlc.encode (packetTypeServerPubkey :: given.server.connSign.publicKeyBytes)))).task =
      .send given.answerWire (.readFrame (.serverComplete (given.clientPending now))) := by
  have hdecode := Hdlc.decode_encode (fits_pubkey given.server.connSign)
  rw [ClientConfig.resume, ClientConfig.onServerPubkey_of_decode hdecode, h.onPublicKey_eq now]
  rfl

theorem fits_request : (Hdlc.encode [packetTypeRequestServerPubkey]).length ≤ Hdlc.maxFrameSize :=
  Hdlc.length_encode_le_max (by decide)

/-- With a request, the server sends its key. -/
theorem onRequest_task (now : Instant) :
    (Task.ofAct (given.server.resume ⟨V, now⟩ given.serverPending
        (Hdlc.encode [packetTypeRequestServerPubkey]))).task =
      .send (packetTypeServerPubkey :: given.server.connSign.publicKeyBytes)
        (.readFrame given.serverPending) := by
  rw [ServerConfig.resume_of_request (Hdlc.decode_encode fits_request)]
  rfl

theorem fits_answer : (Hdlc.encode given.answerWire).length ≤ Hdlc.maxFrameSize :=
  fits_signedHelloWire (given.client.connSign.length_signature _ _) _

/-- With the client's hello, the server sends its signature. -/
theorem onClientHello_task (h : given.Honest V) (now : Instant) :
    (Task.ofAct (given.server.resume ⟨V, now⟩ given.serverPending
        (Hdlc.encode given.answerWire))).task =
      .send given.completeWire (.done (given.serverReturns now)) := by
  have hadmits : given.server.Admits (Moment.mk V now).V given.serverPending.unique _ _ _ :=
    h.admits
  exact congrArg (fun act => (Task.ofAct act).task)
    (ServerConfig.resume_of_admits (Hdlc.decode_encode fits_answer) hadmits)

theorem fits_complete : (Hdlc.encode given.completeWire).length ≤ Hdlc.maxFrameSize := by
  apply Hdlc.length_encode_le_max
  have hle := connSignatureLen_le given.server.connSign.quantumInsecure
  have hlen := given.server.connSign.length_signature given.server.coins
    (given.serverPending.serverHelloWire ++ given.answerWire)
  rw [completeWire, ServerConfig.completeWire, ConnSign.signDetached, List.length_cons, hlen]
  omega

/-- With the server's signature, the client returns. -/
theorem onServerComplete_task (h : given.Honest V) (now later : Instant) :
    (Task.ofAct (given.client.resume ⟨V, later⟩ (.serverComplete (given.clientPending now))
        (Hdlc.encode given.completeWire))).task = .done (given.clientReturns now) := by
  have hverified : (given.clientPending now).serverConnVerify.verifyDetached (Moment.mk V later).V _
      ((given.clientPending now).serverHelloWire ++ (given.clientPending now).clientHelloWire) =
        .ok true := h.verified given.server.coins _
  exact congrArg (fun act => (Task.ofAct act).task)
    (ClientConfig.onServerComplete_of_verified (Hdlc.decode_encode fits_complete)
      (h.length_signDetached _ _) hverified)

end Honest

/-! ## The steps -/

/-- A poll of the client keeps to the stages. -/
theorem Stage.client (h : given.Honest V) (hstage : given.Stage w) (now : Instant)
    {answer : Answer} {rest : Bytes} (hanswer : Faithful w.toClient w.client answer rest) :
    given.Stage (w.afterClient (w.client.poll (given.client.resume ⟨V, now⟩) answer) rest) := by
  cases hstage with
  | hello passing back quiet =>
    obtain ⟨htaken, hpoll⟩ := passing.receiver_poll (given.client.resume ⟨V, now⟩)
      (fits_helloWire _) hanswer
    have hback := List.append_eq_nil_iff.mpr ⟨back, htaken⟩
    rcases hpoll with hpassing | ⟨htask, hsending, hrest⟩
    · exact .hello hpassing hback quiet
    · -- The hello has arrived: the next message is the client's.
      rcases h.onServerHello_task now with hnext | hnext
      · exact .request (passing_send (htask.trans hnext) hsending.waiting hback rfl) hrest quiet
      · exact .answer now (passing_send (htask.trans hnext) hsending.waiting hback rfl) hrest quiet
  -- Here the message is the client's own, so its poll only moves it on.
  | request passing back quiet =>
    rw [back] at hanswer
    obtain ⟨rfl, hpassing⟩ := passing.sender_poll (idle_readFrame _ _) hanswer
    exact .request hpassing rfl quiet
  | pubkey passing back quiet =>
    obtain ⟨htaken, hpoll⟩ := passing.receiver_poll (given.client.resume ⟨V, now⟩)
      (Honest.fits_pubkey _) hanswer
    have hback := List.append_eq_nil_iff.mpr ⟨back, htaken⟩
    rcases hpoll with hpassing | ⟨htask, hsending, hrest⟩
    · exact .pubkey hpassing hback quiet
    · have hnext := htask.trans (h.onServerPubkey_task now)
      exact .answer now (passing_send hnext hsending.waiting hback rfl) hrest quiet
  | answer now' passing back quiet =>
    rw [back] at hanswer
    obtain ⟨rfl, hpassing⟩ := passing.sender_poll (idle_readFrame _ _) hanswer
    exact .answer now' hpassing rfl quiet
  | complete now' serverNow passing back quiet =>
    obtain ⟨htaken, hpoll⟩ := passing.receiver_poll (given.client.resume ⟨V, now⟩)
      Honest.fits_complete hanswer
    have hback := List.append_eq_nil_iff.mpr ⟨back, htaken⟩
    rcases hpoll with hpassing | ⟨htask, hsending, hrest⟩
    · exact .complete now' serverNow hpassing hback quiet
    · rw [h.onServerComplete_task now' now] at htask
      exact .returned now' serverNow htask hsending hrest (hback.trans quiet.symm)
  -- A client that has returned is polled no more.
  | returned now' serverNow client server toClient toServer =>
    rw [client] at hanswer
    cases hanswer

/-- A poll of the server keeps to the stages. -/
theorem Stage.server (h : given.Honest V) (hstage : given.Stage w) (now : Instant)
    {answer : Answer} {rest : Bytes} (hanswer : Faithful w.toServer w.server answer rest) :
    given.Stage (w.afterServer (w.server.poll (given.server.resume ⟨V, now⟩) answer) rest) := by
  cases hstage with
  | hello passing back quiet =>
    rw [back] at hanswer
    obtain ⟨rfl, hpassing⟩ := passing.sender_poll (idle_readFrame _ _) hanswer
    exact .hello hpassing rfl quiet
  | request passing back quiet =>
    obtain ⟨htaken, hpoll⟩ := passing.receiver_poll (given.server.resume ⟨V, now⟩)
      Honest.fits_request hanswer
    have hback := List.append_eq_nil_iff.mpr ⟨back, htaken⟩
    rcases hpoll with hpassing | ⟨htask, hsending, hrest⟩
    · exact .request hpassing hback quiet
    · -- The server sends the key and waits for the next frame, which may again be either.
      have hnext := htask.trans (Honest.onRequest_task now)
      exact .pubkey (passing_send hnext hsending.waiting hback rfl) hrest quiet
  | pubkey passing back quiet =>
    rw [back] at hanswer
    obtain ⟨rfl, hpassing⟩ := passing.sender_poll (idle_readFrame _ _) hanswer
    exact .pubkey hpassing rfl quiet
  | answer now' passing back quiet =>
    obtain ⟨htaken, hpoll⟩ := passing.receiver_poll (given.server.resume ⟨V, now⟩)
      Honest.fits_answer hanswer
    have hback := List.append_eq_nil_iff.mpr ⟨back, htaken⟩
    rcases hpoll with hpassing | ⟨htask, hsending, hrest⟩
    · exact .answer now' hpassing hback quiet
    · have hnext := htask.trans (h.onClientHello_task now)
      exact .complete now' now (passing_send hnext hsending.waiting hback quiet.2) hrest quiet.1
  | complete now' serverNow passing back quiet =>
    rw [back] at hanswer
    obtain ⟨rfl, hpassing⟩ := passing.sender_poll (idle_done _ _ _) hanswer
    exact .complete now' serverNow hpassing rfl quiet
  | returned now' serverNow client server toClient toServer =>
    -- The client has returned on the last byte; the server may still have to flush.
    obtain ⟨rfl, left, hleft, hsending⟩ := server.poll (idle_done _ _ _) hanswer
    obtain ⟨htaken, rfl⟩ := List.append_eq_nil_iff.mp hleft.symm
    refine .returned now' serverNow client hsending ?_ toServer
    change w.toClient ++ _ = _
    rw [htaken, List.append_nil, toClient]
    rfl

/-- A write of the client's application keeps to the stages. -/
theorem Stage.clientWrites (hstage : given.Stage w) {stream : ClientStream C}
    (hdone : w.client = .done stream) (bytes : Bytes) :
    given.Stage { w with
      toServer := w.toServer ++ bytes, clientPayload := w.clientPayload ++ bytes } := by
  cases hstage with
  | hello passing _ _ | pubkey passing _ _ | complete _ _ passing _ _ =>
    obtain ⟨_, _, -, hwaiting, -⟩ := passing
    exact absurd hdone (hwaiting.ne_done stream)
  | request passing _ _ | answer _ passing _ _ =>
    obtain ⟨_, _, hsending, -⟩ := passing
    exact absurd hdone (hsending.ne_done stream)
  | returned now serverNow client server toClient toServer =>
    exact .returned now serverNow client server toClient (congrArg (· ++ bytes) toServer)

/-- A write of the server's application keeps to the stages. -/
theorem Stage.serverWrites (hstage : given.Stage w) {stream : ServerStream C}
    (hdone : w.server = .done stream) (bytes : Bytes) :
    given.Stage { w with
      toClient := w.toClient ++ bytes, serverPayload := w.serverPayload ++ bytes } := by
  cases hstage with
  | hello passing _ _ | pubkey passing _ _ =>
    obtain ⟨_, _, hsending, -⟩ := passing
    exact absurd hdone (hsending.ne_done stream)
  | request passing _ _ | answer _ passing _ _ =>
    obtain ⟨_, _, -, hwaiting, -⟩ := passing
    exact absurd hdone (hwaiting.ne_done stream)
  | complete now serverNow passing back quiet =>
    exact .complete now serverNow (passing.extend hdone bytes) back quiet
  | returned now serverNow client server toClient toServer =>
    exact .returned now serverNow client server (congrArg (· ++ bytes) toClient) toServer

/-- The handshake begins with the first stage. -/
theorem stage_start (h : given.Honest V) : given.Stage (Pair.start given.server) := by
  have hserver : (Task.ofAct given.server.start).task =
      .send (helloWire given.serverHello) (.readFrame given.serverPending) := by
    rw [ServerConfig.start, h.started.newPacketSign, h.started.randomU64]
    rfl
  exact .hello (passing_send hserver (.reading []) rfl rfl) rfl ⟨rfl, rfl⟩

/-- Every reachable state is in a stage. -/
theorem stage_of_run (h : given.Honest V)
    (hrun : Pair.Run given.client given.server V (Pair.start given.server) w) :
    given.Stage w := by
  induction hrun with
  | refl => exact stage_start h
  | tail _ hstep ih =>
    cases hstep with
    | client now answer rest hanswer => exact ih.client h now hanswer
    | server now answer rest hanswer => exact ih.server h now hanswer
    | clientWrites stream hdone bytes => exact ih.clientWrites hdone bytes
    | serverWrites stream hdone bytes => exact ih.serverWrites hdone bytes

/-- In no stage has the client failed. -/
theorem Stage.client_ne_failed (hstage : given.Stage w) (e : Failure) : w.client ≠ .failed e := by
  cases hstage with
  | hello passing _ _ | pubkey passing _ _ | complete _ _ passing _ _ =>
    obtain ⟨_, _, -, hwaiting, -⟩ := passing
    exact hwaiting.ne_failed e
  | request passing _ _ | answer _ passing _ _ =>
    obtain ⟨_, _, hsending, -⟩ := passing
    exact hsending.ne_failed (fun _ => nofun) e
  | returned _ _ client _ _ _ =>
    rw [client]
    exact nofun

/-- In no stage has the server failed. -/
theorem Stage.server_ne_failed (hstage : given.Stage w) (e : Failure) : w.server ≠ .failed e := by
  cases hstage with
  | hello passing _ _ | pubkey passing _ _ | complete _ _ passing _ _ =>
    obtain ⟨_, _, hsending, -⟩ := passing
    exact hsending.ne_failed (fun _ => nofun) e
  | request passing _ _ | answer _ passing _ _ =>
    obtain ⟨_, _, -, hwaiting, -⟩ := passing
    exact hwaiting.ne_failed e
  | returned _ _ _ server _ _ => exact server.ne_failed (fun _ => nofun) e

/-- What both sides have returned, and what is in the streams that they hand on. -/
structure Established (given : Setting C) (w : Pair C) (clientStream : ClientStream C)
    (serverStream : ServerStream C) : Prop where
  serverHello : clientStream.serverHello = given.serverHello
  clientHello : serverStream.clientHello = given.clientHello
  /-- The payload streams are new, and have each other's packet keys. -/
  clientTransport : ∃ now, clientStream.transport =
    .new given.clientSign (.new given.serverSign.publicKeyBytes now)
  serverTransport : ∃ now, serverStream.transport =
    .new given.serverSign (.new given.clientSign.publicKeyBytes now)
  /-- All that the applications have written is still to be read. -/
  toClient : w.toClient = w.serverPayload
  toServer : w.toServer = w.clientPayload

/-- When both sides have returned, they have established the connection. -/
theorem Stage.established (hstage : given.Stage w) {clientStream : ClientStream C}
    {serverStream : ServerStream C} (hclient : w.client = .done clientStream)
    (hserver : w.server = .done serverStream) : given.Established w clientStream serverStream := by
  cases hstage with
  | hello passing _ _ | pubkey passing _ _ | complete _ _ passing _ _ =>
    obtain ⟨_, _, -, hwaiting, -⟩ := passing
    exact absurd hclient (hwaiting.ne_done _)
  | request passing _ _ | answer _ passing _ _ =>
    obtain ⟨_, _, hsending, -⟩ := passing
    exact absurd hclient (hsending.ne_done _)
  | returned now serverNow client server toClient toServer =>
    rw [hserver] at server
    obtain rfl := Task.done.inj (hclient.symm.trans client)
    cases server with
    | sent => exact ⟨rfl, rfl, ⟨now, rfl⟩, ⟨serverNow, rfl⟩, toClient, toServer⟩

/-! ## The handshake finishes -/

/-- A side of the pair that sends to the client takes the place of the old one. -/
def toClientLane (w : Pair C)
    (lane : Lane (ServerPending C) (ServerStream C) (ClientAwait C) (ClientStream C)) : Pair C :=
  { w with server := lane.sender, client := lane.receiver, toClient := lane.fifo }

def toServerLane (w : Pair C)
    (lane : Lane (ClientAwait C) (ClientStream C) (ServerPending C) (ServerStream C)) : Pair C :=
  { w with client := lane.sender, server := lane.receiver, toServer := lane.fifo }

/-- The polls that bring a message to the client on are steps of the pair. -/
theorem step_toClient (w : Pair C) (now : Instant)
    {lane lane' : Lane (ServerPending C) (ServerStream C) (ClientAwait C) (ClientStream C)}
    (h : Lane.Step (given.client.resume ⟨V, now⟩) lane lane') :
    Pair.Step given.client given.server V (toClientLane w lane) (toClientLane w lane') := by
  rcases h.faithful (given.server.resume ⟨V, now⟩) w.toServer with
    ⟨answer, hanswer, rfl⟩ | ⟨answer, rest, hanswer, htaken, rfl⟩
  · exact .server now answer _ hanswer
  · -- A poll of the receiver puts nothing into the other direction.
    have heq : toClientLane w ⟨lane.sender,
          (lane.receiver.poll (given.client.resume ⟨V, now⟩) answer).task, rest⟩ =
        (toClientLane w lane).afterClient
          (lane.receiver.poll (given.client.resume ⟨V, now⟩) answer) rest := by
      rw [Pair.afterClient, htaken, List.append_nil]
      rfl
    rw [heq]
    exact .client now answer rest hanswer

/-- The polls that bring a message to the server on are steps of the pair. -/
theorem step_toServer (w : Pair C) (now : Instant)
    {lane lane' : Lane (ClientAwait C) (ClientStream C) (ServerPending C) (ServerStream C)}
    (h : Lane.Step (given.server.resume ⟨V, now⟩) lane lane') :
    Pair.Step given.client given.server V (toServerLane w lane) (toServerLane w lane') := by
  rcases h.faithful (given.client.resume ⟨V, now⟩) w.toClient with
    ⟨answer, hanswer, rfl⟩ | ⟨answer, rest, hanswer, htaken, rfl⟩
  · exact .client now answer _ hanswer
  · have heq : toServerLane w ⟨lane.sender,
          (lane.receiver.poll (given.server.resume ⟨V, now⟩) answer).task, rest⟩ =
        (toServerLane w lane).afterServer
          (lane.receiver.poll (given.server.resume ⟨V, now⟩) answer) rest := by
      rw [Pair.afterServer, htaken, List.append_nil]
      rfl
    rw [heq]
    exact .server now answer rest hanswer

/-- Both sides can still return. -/
def Finishes (given : Setting C) (V : Verifier) (w : Pair C) : Prop :=
  ∃ w' clientStream serverStream, Pair.Run given.client given.server V w w' ∧
    w'.client = .done clientStream ∧ w'.server = .done serverStream

/-- A message to the client arrives: the server goes on, and the client with the
message. -/
theorem Finishes.of_toClient {wire extra : Bytes} {next : ServerTask C} {k : ClientAwait C}
    (now : Instant) (passing : Passing wire extra next k w.server w.client w.toClient)
    (hsize : (Hdlc.encode wire).length ≤ Hdlc.maxFrameSize)
    (h : given.Finishes V (toClientLane w ⟨next, (Task.ofAct
      (given.client.resume ⟨V, now⟩ k (Hdlc.encode wire))).task, extra⟩)) :
    given.Finishes V w := by
  obtain ⟨w', clientStream, serverStream, hrun, hdone⟩ := h
  have harrives := passing.arrives (given.client.resume ⟨V, now⟩) hsize
  exact ⟨w', clientStream, serverStream,
    (harrives.lift (toClientLane w) fun _ _ => step_toClient w now).trans hrun, hdone⟩

theorem Finishes.of_toServer {wire extra : Bytes} {next : ClientTask C} {k : ServerPending C}
    (now : Instant) (passing : Passing wire extra next k w.client w.server w.toServer)
    (hsize : (Hdlc.encode wire).length ≤ Hdlc.maxFrameSize)
    (h : given.Finishes V (toServerLane w ⟨next, (Task.ofAct
      (given.server.resume ⟨V, now⟩ k (Hdlc.encode wire))).task, extra⟩)) :
    given.Finishes V w := by
  obtain ⟨w', clientStream, serverStream, hrun, hdone⟩ := h
  have harrives := passing.arrives (given.server.resume ⟨V, now⟩) hsize
  exact ⟨w', clientStream, serverStream,
    (harrives.lift (toServerLane w) fun _ _ => step_toServer w now).trans hrun, hdone⟩

/-- From the server's signature on, both sides return. -/
theorem finishes_complete (h : given.Honest V) {now serverNow : Instant} {extra : Bytes}
    (passing : Passing given.completeWire extra (.done (given.serverReturns serverNow))
      (.serverComplete (given.clientPending now)) w.server w.client w.toClient) :
    given.Finishes V w := by
  refine .of_toClient 0 passing Honest.fits_complete ?_
  exact ⟨_, _, _, .refl, h.onServerComplete_task now 0, rfl⟩

/-- From the client's hello on, both sides return. -/
theorem finishes_answer (h : given.Honest V) {now : Instant}
    (passing : Passing given.answerWire [] (.readFrame (.serverComplete (given.clientPending now)))
      given.serverPending w.client w.server w.toServer) (back : w.toClient = []) :
    given.Finishes V w := by
  refine .of_toServer 0 passing Honest.fits_answer ?_
  exact finishes_complete h (passing_send (h.onClientHello_task 0) (.reading []) back rfl)

theorem finishes_pubkey (h : given.Honest V)
    (passing : Passing (packetTypeServerPubkey :: given.server.connSign.publicKeyBytes) []
      (.readFrame given.serverPending)
      (.serverPubkey (helloWire given.serverHello) given.serverHello) w.server w.client w.toClient)
    (back : w.toServer = []) : given.Finishes V w := by
  refine .of_toClient 0 passing (Honest.fits_pubkey _) ?_
  exact finishes_answer h (passing_send (h.onServerPubkey_task 0) (.reading []) back rfl) rfl

theorem finishes_request (h : given.Honest V)
    (passing : Passing [packetTypeRequestServerPubkey] []
      (.readFrame (.serverPubkey (helloWire given.serverHello) given.serverHello))
      given.serverPending w.client w.server w.toServer)
    (back : w.toClient = []) : given.Finishes V w := by
  refine .of_toServer 0 passing Honest.fits_request ?_
  exact finishes_pubkey h
    (passing_send (Honest.onRequest_task (V := V) 0) (.reading []) back rfl) rfl

/-- From every stage, both sides can still return. -/
theorem Stage.finishes (h : given.Honest V) (hstage : given.Stage w) : given.Finishes V w := by
  cases hstage with
  | hello passing back quiet =>
    refine .of_toClient 0 passing (fits_helloWire _) ?_
    rcases h.onServerHello_task 0 with hnext | hnext
    · exact finishes_request h (passing_send hnext (.reading []) back rfl) rfl
    · exact finishes_answer h (passing_send hnext (.reading []) back rfl) rfl
  | request passing back quiet => exact finishes_request h passing back
  | pubkey passing back quiet => exact finishes_pubkey h passing back
  | answer now passing back quiet => exact finishes_answer h passing back
  | complete now serverNow passing back quiet => exact finishes_complete h passing
  | returned now serverNow client server toClient toServer =>
    have hwrites := (server.writes (given.client.resume ⟨V, now⟩) w.client w.toClient).lift
      (toClientLane w) fun _ _ => step_toClient w now
    exact ⟨_, _, _, hwrites, client, rfl⟩

/-- In every reachable state of an honest client and an honest server over a faithful
stream, neither side has failed, both can still return, and when both have, they have
established the connection, with all that was written behind it still to be read. -/
theorem honest_handshake (given : Setting C) (V : Verifier) (h : given.Honest V) {w : Pair C}
    (hrun : Pair.Run given.client given.server V (Pair.start given.server) w) :
    (∀ e, w.client ≠ .failed e) ∧ (∀ e, w.server ≠ .failed e) ∧ given.Finishes V w ∧
      ∀ clientStream serverStream, w.client = .done clientStream → w.server = .done serverStream →
        given.Established w clientStream serverStream := by
  have hstage := stage_of_run h hrun
  exact ⟨hstage.client_ne_failed, hstage.server_ne_failed, hstage.finishes h,
    fun _ _ => hstage.established⟩

/-! ### The sample client and server -/

/-- A client of key pair 1 that knows the server's key, and a server of key pair 2 that
authorizes the client's. -/
def sample : Setting Crypto.sample where
  client := .sample 1 (ConnSign.sample 2).publicKeyBytes
  server := .sample 2 7 (ConnSign.sample 1).publicKeyBytes
  clientSign := .sample 1
  serverSign := .sample 2
  clientUnique := 0
  serverUnique := 7

theorem honest_sample : sample.Honest .acceptAll where
  correct := Verifier.correct_acceptAll _
  mode := rfl
  newPacketSign := rfl
  randomU64 := rfl
  started := ⟨rfl, rfl⟩
  authorized := ServerConfig.sample_authorizedKeys ..
  accepts := rfl
  lookup := .inr rfl

/-- The sample client and server have a run in which both return, and there they have
established their connection. -/
theorem honest_handshake_sample :
    ∃ (w : Pair Crypto.sample) (clientStream : ClientStream Crypto.sample)
      (serverStream : ServerStream Crypto.sample), w.client = .done clientStream ∧
        w.server = .done serverStream ∧ sample.Established w clientStream serverStream := by
  obtain ⟨-, -, ⟨w, clientStream, serverStream, hrun, hclient, hserver⟩, -⟩ :=
    honest_handshake sample .acceptAll honest_sample .refl
  obtain ⟨-, -, -, hestablished⟩ := honest_handshake sample .acceptAll honest_sample hrun
  exact ⟨w, clientStream, serverStream, hclient, hserver, hestablished _ _ hclient hserver⟩

end Setting

end Axsh

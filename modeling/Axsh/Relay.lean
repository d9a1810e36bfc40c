/-
# What the server learns about its client

The client's signature is over the server's challenge value and its own hello, and
over nothing else of the server hello that it answers. So an attacker whose key the
client accepts can show the client a hello of its own with a server's challenge
value, and hand the answer to that server, which then completes with a client that
meant to talk to the attacker (`server_agreement_fails`).

What a server does learn is that the client answered a hello with its challenge
value. If the client has also returned, under the key of an honest party, then the
hello it answered is the one that this server sent (`server_agreement`).
-/

import Axsh.Admission
import Axsh.Agreement

set_option autoImplicit false

namespace Axsh

namespace Network

variable {C : Crypto} {ι α β : Type}

/-- Whenever an honest server session completes with the packet key of an honest
client session, that client received the hello that this session sent. -/
def ServerAgreement (net : Network C ι α β) (w : World C ι α β) : Prop :=
  ∀ b stream a packetSign, ¬ net.corrupt (net.serverParty b) → ¬ net.corrupt (net.clientParty a) →
    (w.servers b).task = .done stream → (net.client a).newPacketSign = .ok packetSign →
    stream.clientHello.packetSignPublicKey = packetSign.publicKeyBytes →
    ∃ hello, .received (helloWire hello) ∈ (w.clients a).trace ∧
      .wrote (helloWire hello) ∈ (w.servers b).trace

/-- The client is shown a hello of the attacker, who is party 3. -/
theorem not_serverAgreement_relayed : ¬ (sample 3 1).ServerAgreement (sampleWorld 3) := by
  intro hagree
  have hdone : ((sampleWorld 3).servers ()).task = .done (ServerConfig.established 0
      (((sample 3 1).server ()).pendingAfter (.sample 2) 7) sampleClientHello) := by
    rw [sampleWorld, setServer_servers_self]
    rfl
  obtain ⟨hello, hreceived, hwrote⟩ := hagree () _ () (.sample 1) (by simp [sample])
    (by simp [sample]) hdone rfl rfl
  rw [sampleWorld, setServer_servers_self] at hwrote
  rw [sampleWorld, setServer_clients, setClient_clients_self] at hreceived
  have hshown : hello = sampleHello 3 7 := by
    simp only [relayedClient, ClientConfig.answerEvents, List.cons_append, List.nil_append,
      List.mem_cons, Event.received.injEq, reduceCtorEq, List.not_mem_nil, or_false] at hreceived
    exact ClientConfig.helloWire_injective hreceived
  have hsent : hello = ((sample 3 1).server ()).serverHello (.sample 2) 7 := by
    simp only [relayedServer, ServerConfig.loopEvents, ServerConfig.acceptEvents,
      List.replicate_zero, List.flatten_nil, List.cons_append, List.nil_append, List.mem_cons,
      Event.wrote.injEq, reduceCtorEq, List.not_mem_nil, or_false, false_or] at hwrote
    rcases hwrote with hwire | hwire
    · exact ClientConfig.helloWire_injective hwire
    · exact absurd (List.cons.inj hwire).1 (by decide)
  -- The two hellos carry the packet keys of parties 3 and 2.
  have hkey := congrArg (fun hello => hello.packetSignPublicKey.1.head?) (hshown.symm.trans hsent)
  exact absurd hkey (by decide)

/-- A client hello in which the attacker names its own key, and the packet key of the
honest client. -/
def borrowedHello : ClientHello where
  unique := 0
  connSignPublicKeySha256 := Crypto.sample.sha256 (ConnSign.sample 3).publicKeyBytes
  packetSignPublicKey := (PacketSign.sample 1).publicKeyBytes

/-- The attacker's signature of that hello for the sample server. -/
def borrowedSignature : Bytes :=
  (ConnSign.sample 3).signature [] (u64ToBeBytes 7 ++ encodeClientHello borrowedHello)

/-- The variables of the sample server that has sent its hello. -/
def borrowedPending : ServerPending Crypto.sample :=
  ((sample 2 3).server ()).pendingAfter (.sample 2) 7

/-- A server that authorizes the attacker's key has completed with that hello, and the
honest client has done nothing. -/
def borrowedWorld : World Crypto.sample UInt8 Unit Unit :=
  setServer
    { (sample 2 3).initial with
      foreign := [(3, u64ToBeBytes 7 ++ encodeClientHello borrowedHello)] } ()
    { task := .done (ServerConfig.established 0 borrowedPending borrowedHello)
      trace := ((sample 2 3).server ()).loopEvents
          (((sample 2 3).server ()).serverHello (.sample 2) 7) 0 ++
        ((sample 2 3).server ()).acceptEvents borrowedPending
          (signedHelloWire borrowedSignature borrowedHello)
      sent := Hdlc.encode (helloWire (((sample 2 3).server ()).serverHello (.sample 2) 7)) ++
        Hdlc.encode (((sample 2 3).server ()).completeWire borrowedPending
          (signedHelloWire borrowedSignature borrowedHello)) }

theorem reachable_borrowedWorld : (sample 2 3).Reachable (fun _ => True) borrowedWorld := by
  have hstarted : ((sample 2 3).server ()).Started (.sample 2) 7 := ⟨rfl, rfl⟩
  have hlen := (ConnSign.sample 3).length_signature []
    (u64ToBeBytes 7 ++ encodeClientHello borrowedHello)
  have hauthorized : ((sample 2 3).server ()).authorizedKeys
      borrowedHello.connSignPublicKeySha256 = some (ConnSign.sample 3).publicKeyBytes :=
    ServerConfig.sample_authorizedKeys ..
  have hadmits : ((sample 2 3).server ()).Admits
      (.genuine 3 (u64ToBeBytes 7 ++ encodeClientHello borrowedHello)) 7 borrowedHello
      (ConnSign.sample 3).publicKeyBytes borrowedSignature :=
    ⟨hauthorized, ConnVerify.accepts_genuine hlen⟩
  -- The attacker signs, the server sends its hello, and then it gets the attacker's.
  have hforeign : (sample 2 3).Reachable (fun _ => True) _ :=
    Relation.ReflTransGen.single
      (.foreign 3 (u64ToBeBytes 7 ++ encodeClientHello borrowedHello) rfl)
  have hsent := hforeign.server () ⟨.rejectAll, 0⟩ (unforged_rejectAll _)
    (ServerConfig.afterAll_hello hstarted ⟨.rejectAll, 0⟩)
  have haccepted := hsent.server () ⟨_, 0⟩
    (unforged_genuine rfl (.inr (.inr (List.mem_singleton_self _))))
    (s := borrowedWorld.servers ()) (by
      rw [setServer_servers_self, borrowedWorld, setServer_servers_self]
      exact ServerConfig.afterAll_accept hadmits _ _)
  rw [setServer_setServer, borrowedWorld, setServer_servers_self] at haccepted
  exact haccepted

theorem not_serverAgreement_borrowed : ¬ (sample 2 3).ServerAgreement borrowedWorld := by
  intro hagree
  have hdone : (borrowedWorld.servers ()).task =
      .done (ServerConfig.established 0 borrowedPending borrowedHello) := by
    rw [borrowedWorld, setServer_servers_self]
  obtain ⟨hello, hreceived, -⟩ := hagree () _ () (.sample 1) (by simp [sample]) (by simp [sample])
    hdone rfl rfl
  rw [borrowedWorld, setServer_clients] at hreceived
  exact absurd hreceived List.not_mem_nil

/-- Two reachable worlds without the agreement, though the challenge values of all
server sessions are distinct. In the first the client has accepted the attacker's
key, in the second the server has authorized it. -/
theorem server_agreement_fails :
    ((sample 3 1).Reachable (fun _ => True) (sampleWorld 3) ∧
      (∀ s, (sample 3 1).DistinctUniques s) ∧ ¬ (sample 3 1).ServerAgreement (sampleWorld 3)) ∧
    ((sample 2 3).Reachable (fun _ => True) borrowedWorld ∧
      (∀ s, (sample 2 3).DistinctUniques s) ∧ ¬ (sample 2 3).ServerAgreement borrowedWorld) :=
  ⟨⟨reachable_sampleWorld 3, fun _ _ _ _ _ _ _ _ => rfl, not_serverAgreement_relayed⟩,
    reachable_borrowedWorld, fun _ _ _ _ _ _ _ _ => rfl, not_serverAgreement_borrowed⟩

/-- Different client sessions have different packet keys. -/
def FreshPacketKeys (net : Network C ι α β) : Prop :=
  ∀ a a' packetSign packetSign', (net.client a).newPacketSign = .ok packetSign →
    (net.client a').newPacketSign = .ok packetSign' →
    packetSign.publicKeyBytes = packetSign'.publicKeyBytes → a = a'

/-- What the server session `b` has learnt about the client session `a` whose hello
it accepted: that hello is the client's, and answers a server hello with this
session's challenge value. -/
structure Answers (net : Network C ι α β) (w : World C ι α β) (b : β) (a : α)
    (hello : ClientHello) (serverHello : ServerHello) : Prop where
  received : (w.clients a).trace.head? = some (.received (helloWire serverHello))
  unique : (net.server b).randomU64 = .ok serverHello.unique
  made : ∃ packetSign unique, (net.client a).newPacketSign = .ok packetSign ∧
    (net.client a).randomU64 = .ok unique ∧ hello = (net.client a).clientHello packetSign unique
  wrote : ∃ signature, .wrote (signedHelloWire signature hello) ∈ (w.clients a).trace

variable {net : Network C ι α β} {modes : Bool → Prop} {w : World C ι α β}

/-- A server that completes under the key of an honest party, with the packet key of
a client session, has the answer of that session. -/
theorem Invariant.answers (h : net.Invariant modes w) (hfresh : net.FreshPacketKeys) {b : β}
    {a : α} {stream : ServerStream C} {packetSign : PacketSign C} {i : ι}
    (hmode : modes (net.server b).connSign.quantumInsecure)
    (hdone : (w.servers b).task = .done stream) (hi : ¬ net.corrupt i)
    (hauthorized : (net.server b).authorizedKeys stream.clientHello.connSignPublicKeySha256 =
      some (net.publicKey i))
    (hkey : (net.client a).newPacketSign = .ok packetSign)
    (hpacket : stream.clientHello.packetSignPublicKey = packetSign.publicKeyBytes) :
    net.clientParty a = i ∧
      ∃ serverHello, net.Answers w b a stream.clientHello serverHello := by
  have hserver := h.server b
  rw [hdone] at hserver
  obtain ⟨now, serverSign, unique, hello, publicKey, signature, n, haccepted, rfl, -⟩ := hserver
  obtain ⟨V, hV, hadmits⟩ := haccepted.admits
  obtain rfl := Option.some.inj (hauthorized.symm.trans hadmits.authorized)
  have hstated : net.Stated modes w i (.client unique hello) :=
    h.stated_of_accepts hi hV hmode hadmits.accepts
  obtain ⟨a', serverHello, key, clientSign, clientUnique, lead, hparty, hanswered, rfl, rfl,
    htrace⟩ := hstated
  -- The packet key tells the client sessions apart.
  obtain rfl := hfresh a' a _ _ hanswered.newPacketSign hkey hpacket
  refine ⟨hparty, serverHello, hanswered.source.head_eq htrace, haccepted.started.randomU64,
    ⟨clientSign, clientUnique, hanswered.newPacketSign, hanswered.randomU64, rfl⟩,
    (net.client a').connSign.signature (net.client a').coins (u64ToBeBytes serverHello.unique ++
      encodeClientHello ((net.client a').clientHello clientSign clientUnique)), ?_⟩
  exact htrace.subset (List.mem_append_right _ (.tail _ (.tail _ (.head _))))

variable [DecidableEq α] [DecidableEq β]

/-- In every reachable world, a server session that completes under the key of an
honest party, with the packet key of a client session, has that session's answer to a
server hello with its own challenge value. If the client has returned under the key of
an honest party, that server hello is the one that this session sent. Either statement
needs the signatures to be unforged only in the mode of the session that it is about. -/
theorem server_agreement (net : Network C ι α β) {modes : Bool → Prop} {w : World C ι α β}
    (hreach : net.Reachable modes w) (hfresh : net.FreshPacketKeys)
    (hdistinct : ∀ b b' unique, (net.server b).randomU64 = .ok unique →
      (net.server b').randomU64 = .ok unique → b = b')
    {b : β} {a : α} {stream : ServerStream C} {packetSign : PacketSign C} {i : ι}
    (hmode : modes (net.server b).connSign.quantumInsecure)
    (hdone : (w.servers b).task = .done stream) (hi : ¬ net.corrupt i)
    (hauthorized : (net.server b).authorizedKeys stream.clientHello.connSignPublicKeySha256 =
      some (net.publicKey i))
    (hkey : (net.client a).newPacketSign = .ok packetSign)
    (hpacket : stream.clientHello.packetSignPublicKey = packetSign.publicKeyBytes) :
    net.clientParty a = i ∧
    ∃ serverHello, net.Answers w b a stream.clientHello serverHello ∧
      ∀ returned j, modes (net.client a).connSign.quantumInsecure →
        (w.clients a).task = .done returned → ¬ net.corrupt j →
        .asked returned.serverHello (net.publicKey j) true ∈ (w.clients a).trace →
        returned.serverHello = serverHello ∧ net.serverParty b = j ∧
          .wrote (helloWire serverHello) ∈ (w.servers b).trace := by
  have hinvariant := hreach.invariant
  obtain ⟨hparty, serverHello, hanswers⟩ :=
    hinvariant.answers hfresh hmode hdone hi hauthorized hkey hpacket
  refine ⟨hparty, serverHello, hanswers, ?_⟩
  intro returned j hclient hreturned hj hasked
  obtain ⟨b', hserver, hagree⟩ := hinvariant.agree hclient hreturned hj hasked
  -- The client received one server hello, and its challenge value is of one session.
  have hhead := hinvariant.head_of_done hreturned
  rw [hanswers.received] at hhead
  obtain rfl := ClientConfig.helloWire_injective (Event.received.inj (Option.some.inj hhead))
  obtain rfl := hdistinct b b' _ hanswers.unique hagree.unique
  exact ⟨rfl, hserver, hagree.serverHello.2⟩

/-- What the server learns in the sample run in which the client returns too. -/
theorem server_agreement_sampleAgreed :
    ((sample 2 1).clientParty () = 1 ∧
      ∃ serverHello, (sample 2 1).Answers sampleAgreed () () sampleClientHello serverHello ∧
        ∀ returned j, (sampleAgreed.clients ()).task = .done returned →
          ¬ (sample 2 1).corrupt j →
          .asked returned.serverHello ((sample 2 1).publicKey j) true ∈
            (sampleAgreed.clients ()).trace →
          returned.serverHello = serverHello ∧ (sample 2 1).serverParty () = j ∧
            .wrote (helloWire serverHello) ∈ (sampleAgreed.servers ()).trace) := by
  have hdone : (sampleAgreed.servers ()).task = .done (ServerConfig.established 0
      (((sample 2 1).server ()).pendingAfter (.sample 2) 7) sampleClientHello) := by
    rw [sampleAgreed, setClient_servers, sampleWorld, setServer_servers_self]
    rfl
  have hdigest : sampleClientHello.connSignPublicKeySha256 =
      Crypto.sample.sha256 (ConnSign.sample 1).publicKeyBytes := rfl
  have hauthorized : ((sample 2 1).server ()).authorizedKeys
      sampleClientHello.connSignPublicKeySha256 = some ((sample 2 1).publicKey 1) := by
    rw [hdigest]
    exact ServerConfig.sample_authorizedKeys ..
  obtain ⟨hparty, serverHello, hanswers, hreturns⟩ :=
    server_agreement (sample 2 1)
      (reachable_sampleAgreed : (sample 2 1).Reachable (· = false) sampleAgreed)
      (fun _ _ _ _ _ _ _ => rfl) (fun _ _ _ _ _ => rfl) rfl hdone (by simp [sample])
      hauthorized rfl rfl
  exact ⟨hparty, serverHello, hanswers, fun returned j => hreturns returned j rfl⟩

end Network

end Axsh

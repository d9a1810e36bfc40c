/-
# The client's agreement with the server

A client that returns under an honest server's key shares its two hellos, and so
the packet keys, with one session of that server. The signature in
`ServerComplete` is over both hellos as sent and received, so an honest server has
signed them in a session of its own.
-/

import Axsh.Network.Handshake

set_option autoImplicit false

namespace Axsh

variable {C : Crypto} {ι α β : Type} {net : Network C ι α β}

/-- A client session and a server session with the same hellos and crosswise packet
keys, where the client has returned `stream`. -/
structure Agree (net : Network C ι α β) (w : World C ι α β) (a : α) (b : β)
    (stream : ClientStream C) : Prop where
  /-- The server session sent the hello that the client received. -/
  serverHello : .received (helloWire stream.serverHello) ∈ (w.clients a).trace ∧
    .wrote (helloWire stream.serverHello) ∈ (w.servers b).trace
  /-- It drew the challenge value in it. -/
  unique : (net.server b).randomU64 = .ok stream.serverHello.unique
  /-- It received the hello that the client sent, and accepted it by signing both. -/
  clientHello : ∃ body, .wrote (packetTypeClientHello :: body) ∈ (w.clients a).trace ∧
    .received (packetTypeClientHello :: body) ∈ (w.servers b).trace ∧
    .signed (helloWire stream.serverHello ++ packetTypeClientHello :: body) ∈ (w.servers b).trace
  /-- The client verifies packets with the packet key of the server session. -/
  serverKey : ∃ packetSign, (net.server b).newPacketSign = .ok packetSign ∧
    stream.transport.peerPacketVerify.publicKey = packetSign.publicKeyBytes
  /-- The server session ends, unless it fails, in a stream that signs packets with that
  key and verifies them with the packet key of the client. -/
  clientKey : (w.servers b).task.Ends fun accepted =>
    accepted.transport.packetSign.publicKeyBytes = stream.transport.peerPacketVerify.publicKey ∧
    accepted.transport.peerPacketVerify.publicKey = stream.transport.packetSign.publicKeyBytes

namespace Network

variable {modes : Bool → Prop} {w : World C ι α β}

/-- The key that a returned client has asked about is the one it verified with. -/
theorem asked_eq {cfg : ClientConfig C} {hello : ServerHello} {publicKey key : Bytes}
    {packetSign : PacketSign C} {unique : UInt64} {lead : List Event} {wire : Bytes}
    (h : cfg.Answered hello publicKey packetSign unique lead) {hello' : ServerHello}
    (hmem : .asked hello' key true ∈
      lead ++ cfg.answerEvents hello publicKey packetSign unique ++ [.received wire]) :
    key = publicKey := by
  have hsource := h.source
  cases hsource with
  | known | fetched =>
    simp [ClientConfig.answerEvents, ClientConfig.requestEvents] at hmem
    exact hmem.2

/-- A returned client shares its hellos with a session of the honest party whose key
it accepted. -/
theorem Invariant.agree (h : net.Invariant modes w) {a : α} {stream : ClientStream C} {i : ι}
    (hmode : modes (net.client a).connSign.quantumInsecure)
    (hdone : (w.clients a).task = .done stream) (hi : ¬ net.corrupt i)
    (hasked : .asked stream.serverHello (net.publicKey i) true ∈ (w.clients a).trace) :
    ∃ b, net.serverParty b = i ∧ Agree net w a b stream := by
  have hclient := h.client a
  rw [hdone] at hclient
  obtain ⟨V, now, serverHello, publicKey, packetSign, unique, lead, signature, hV, hanswered,
    hverified, rfl, htrace⟩ := hclient
  rw [htrace] at hasked
  obtain rfl := asked_eq hanswered hasked
  -- The verified signature is the party's own, over the two hellos.
  have haccepts := (ConnVerify.verifyDetached_eq_true_iff_accepts V hverified.length _).mp
    hverified.verified
  have hsigned := haccepts.signed (hV i _ hmode)
  obtain ⟨b, serverSign, serverUnique, key, n, hparty, haccepted, hhello, hserver⟩ :=
    h.signed_hellos hi hsigned
  have hends := (h.server b).ends haccepted (by
    rw [hserver, hhello]
    simp [ServerConfig.acceptEvents, ServerConfig.pendingAfter])
  have hlead : .received (helloWire serverHello) ∈ lead :=
    List.mem_of_head? hanswered.source.received
  have hreceived : .received (helloWire serverHello) ∈ (w.clients a).trace := by
    simp [htrace, hlead]
  have hsent : .wrote (helloWire serverHello) ∈ (w.servers b).trace := by
    simp [hserver, ServerConfig.loopEvents]
  obtain ⟨body, hbody⟩ : ∃ body, (net.client a).clientHelloWire serverHello packetSign unique =
      packetTypeClientHello :: body := ⟨_, rfl⟩
  have hwrote : .wrote (packetTypeClientHello :: body) ∈ (w.clients a).trace := by
    rw [htrace, ← hbody]
    simp [ClientConfig.answerEvents]
  have haccept : ∀ event ∈ (net.server b).acceptEvents
      ((net.server b).pendingAfter serverSign serverUnique) (packetTypeClientHello :: body),
        event ∈ (w.servers b).trace := by
    intro event hmem
    rw [← hbody] at hmem
    rw [hserver]
    exact List.mem_append_right _ hmem
  refine ⟨b, hparty, ⟨hreceived, hsent⟩, ?_, ⟨body, hwrote, haccept _ (.head _), haccept _ ?_⟩,
    ⟨serverSign, haccepted.started.newPacketSign, ?_⟩, hends.mono ?_⟩
  · have hunique := congrArg ServerHello.unique hhello
    exact haccepted.started.randomU64.trans (congrArg Except.ok hunique.symm)
  · rw [ServerConfig.acceptEvents, ServerConfig.pendingAfter, ← hhello]
    exact .tail _ (.head _)
  · exact congrArg ServerHello.packetSignPublicKey hhello
  · rintro accepted ⟨later, rfl⟩
    exact ⟨(congrArg ServerHello.packetSignPublicKey hhello).symm, rfl⟩

/-- A returned client answered the hello that its stream holds. -/
theorem Invariant.head_of_done (h : net.Invariant modes w) {a : α} {stream : ClientStream C}
    (hdone : (w.clients a).task = .done stream) :
    (w.clients a).trace.head? = some (.received (helloWire stream.serverHello)) := by
  have hclient := h.client a
  rw [hdone] at hclient
  obtain ⟨V, now, serverHello, publicKey, packetSign, unique, lead, signature, -, hanswered, -, rfl,
    htrace⟩ := hclient
  have hfront : lead ++ (net.client a).answerEvents serverHello publicKey packetSign unique <+:
      (w.clients a).trace := htrace ▸ List.prefix_append _ _
  exact hanswered.source.head_eq hfront

variable [DecidableEq α] [DecidableEq β]

/-- In every reachable world, a default-mode client that has returned after accepting
the key of an honest party agrees with a session of that party. One of the two
algorithms unforged is enough. -/
theorem client_agreement (net : Network C ι α β) {w : World C ι α β}
    (hreach : net.Reachable (· = false) w) {a : α} {stream : ClientStream C} {i : ι}
    (hmode : (net.client a).connSign.quantumInsecure = false)
    (hdone : (w.clients a).task = .done stream) (hi : ¬ net.corrupt i)
    (hasked : .asked stream.serverHello (net.publicKey i) true ∈ (w.clients a).trace) :
    ∃ b, net.serverParty b = i ∧ Agree net w a b stream :=
  hreach.invariant.agree hmode hdone hi hasked

/-! ## A sample run -/

/-- The variables of the sample client that waits for the server's signature. -/
def samplePending : ClientPending Crypto.sample :=
  ((sample 2 1).client ()).pendingAfter 0 (helloWire (sampleHello 2 7)) (sampleHello 2 7)
    (ConnSign.sample 2).publicKeyBytes (.sample 1) 0

/-- The sample server's signature over the two hellos. -/
def sampleSignature : Bytes :=
  (ConnSign.sample 2).signature [] (samplePending.serverHelloWire ++ samplePending.clientHelloWire)

/-- The sample network after the client has received that signature. -/
def sampleAgreed : World Crypto.sample UInt8 Unit Unit :=
  setClient (sampleWorld 2) ()
    { task := .done (ClientConfig.established samplePending)
      trace := ((sampleWorld 2).clients ()).trace ++
        [.received (packetTypeServerComplete :: sampleSignature)]
      sent := ((sampleWorld 2).clients ()).sent }

theorem reachable_sampleAgreed : (sample 2 1).Reachable modes sampleAgreed := by
  have hlen := (ConnSign.sample 2).length_signature []
    (samplePending.serverHelloWire ++ samplePending.clientHelloWire)
  have hsigned : (sample 2 1).Signed (sampleWorld 2) 2
      (samplePending.serverHelloWire ++ samplePending.clientHelloWire) := by
    refine .inr (.inl ⟨(), rfl, ?_⟩)
    rw [sampleWorld, setServer_servers_self]
    exact List.mem_append_right _ (.tail _ (.head _))
  have hverified := (ConnVerify.verifyDetached_eq_true_iff_accepts
    (.genuine 2 (samplePending.serverHelloWire ++ samplePending.clientHelloWire)) hlen _).mpr
      (ConnVerify.accepts_genuine hlen)
  exact (reachable_sampleWorld 2).client () ⟨_, 0⟩ (unforged_genuine rfl hsigned)
    (ClientConfig.afterAll_complete ⟨_, 0⟩ hlen hverified)

theorem asked_sampleAgreed : .asked (sampleHello 2 7) (ConnSign.sample 2).publicKeyBytes true ∈
    (sampleAgreed.clients ()).trace := by
  have hworld : ((sampleWorld 2).clients ()).trace = ((sample 2 1).relayedClient ()
      (sampleHello 2 7) (ConnSign.sample 2).publicKeyBytes (.sample 1) 0).trace := by
    rw [sampleWorld, setServer_clients, setClient_clients_self]
  rw [sampleAgreed, setClient_clients_self, hworld]
  exact List.mem_append_left _ (.tail _ (.tail _ (.head _)))

/-- The agreement at that run. -/
theorem client_agreement_sampleAgreed :
    ∃ b, (sample 2 1).serverParty b = 2 ∧
      Agree (sample 2 1) sampleAgreed () b (ClientConfig.established samplePending) :=
  client_agreement (sample 2 1) reachable_sampleAgreed rfl rfl (by simp [sample]) asked_sampleAgreed

end Network

end Axsh

/-
# A handshake through the attacker

The attacker carries the messages between a client session and a server session,
and may show the client another server hello than the one that was sent, as long
as it has the same challenge value. This is a run of every network that has such
sessions. The sample network at the end is one, for each choice of the party whose
hello the client is shown.
-/

import Axsh.Handshake.Sample
import Axsh.Network

set_option autoImplicit false

namespace Axsh

namespace Network

variable {C : Crypto} {ι α β : Type} {net : Network C ι α β} {modes : Bool → Prop}

/-- Verdicts that accept nothing are unforged. -/
theorem unforged_rejectAll (w : World C ι α β) : net.Unforged modes w .rejectAll := by
  intro i mode _ der key _
  refine .inr fun message signature h => ?_
  cases h

/-- The sessions of a relayed handshake: the client `a` is shown `serverHello`, with
a key that its lookup knows, and the server `b` has the challenge value in it and
authorizes the client's key. -/
structure Relay (net : Network C ι α β) (a : α) (b : β) (serverHello : ServerHello)
    (publicKey : Bytes) (packetSign : PacketSign C) (unique : UInt64)
    (serverSign : PacketSign C) : Prop where
  lookup : (net.client a).lookupServerPubkey serverHello = .ok (some publicKey)
  answered : (net.client a).Answered serverHello publicKey packetSign unique
    [.received (helloWire serverHello), .lookedUp serverHello (some publicKey)]
  started : (net.server b).Started serverSign serverHello.unique

variable {a : α} {b : β} {serverHello : ServerHello} {publicKey : Bytes}
  {packetSign : PacketSign C} {unique : UInt64} {serverSign : PacketSign C}

/-- The client's side of a relayed handshake, up to its wait for the signature. -/
def relayedClient (net : Network C ι α β) (a : α) (serverHello : ServerHello) (publicKey : Bytes)
    (packetSign : PacketSign C) (unique : UInt64) : ClientSession C where
  task := .readFrame (.serverComplete ((net.client a).pendingAfter 0 (helloWire serverHello)
    serverHello publicKey packetSign unique))
  trace := [.received (helloWire serverHello), .lookedUp serverHello (some publicKey)] ++
    (net.client a).answerEvents serverHello publicKey packetSign unique
  sent := Hdlc.encode ((net.client a).clientHelloWire serverHello packetSign unique)

/-- The server's side of a relayed handshake. -/
def relayedServer (net : Network C ι α β) (a : α) (b : β) (serverHello : ServerHello)
    (packetSign : PacketSign C) (unique : UInt64) (serverSign : PacketSign C) :
    ServerSession C where
  task := .done (ServerConfig.established 0
    ((net.server b).pendingAfter serverSign serverHello.unique)
    ((net.client a).clientHello packetSign unique))
  trace := (net.server b).loopEvents
      ((net.server b).serverHello serverSign serverHello.unique) 0 ++
    (net.server b).acceptEvents ((net.server b).pendingAfter serverSign serverHello.unique)
      ((net.client a).clientHelloWire serverHello packetSign unique)
  sent := Hdlc.encode (helloWire ((net.server b).serverHello serverSign serverHello.unique)) ++
    Hdlc.encode ((net.server b).completeWire
      ((net.server b).pendingAfter serverSign serverHello.unique)
      ((net.client a).clientHelloWire serverHello packetSign unique))

variable [DecidableEq α] [DecidableEq β]

/-- The client's answer leads the server to the connection, whatever else the hello
that the client was shown says, and whatever other sessions have done. The verdicts `V` need
only hold the client's signature for genuine. -/
theorem Relay.reachable (h : net.Relay a b serverHello publicKey packetSign unique serverSign)
    {w : World C ι α β} (hreach : net.Reachable modes w)
    (ha : w.clients a = ClientConfig.session) (hb : w.servers b = (net.server b).session)
    {V : Verifier} {key : Bytes}
    (hadmits : (net.server b).Admits V serverHello.unique
      ((net.client a).clientHello packetSign unique) key
      ((net.client a).connSign.signature (net.client a).coins
        (u64ToBeBytes serverHello.unique ++
          encodeClientHello ((net.client a).clientHello packetSign unique))))
    (hV : ∀ w : World C ι α β, net.Signed w (net.clientParty a) (u64ToBeBytes serverHello.unique ++
      encodeClientHello ((net.client a).clientHello packetSign unique)) →
        net.Unforged modes w V) :
    net.Reachable modes
      (setServer (setClient w a
          (net.relayedClient a serverHello publicKey packetSign unique)) b
        (net.relayedServer a b serverHello packetSign unique serverSign)) := by
  have hhello := ServerConfig.afterAll_hello h.started ⟨.rejectAll, 0⟩
  rw [← hb] at hhello
  have hsent := hreach.server b ⟨.rejectAll, 0⟩ (unforged_rejectAll _) hhello
  have hknown := ClientConfig.afterAll_known ⟨.rejectAll, 0⟩ h.lookup h.answered.digest
    h.answered.accepted h.answered.newPacketSign h.answered.randomU64
  rw [← ha] at hknown
  have hanswered := hsent.client a ⟨.rejectAll, 0⟩ (unforged_rejectAll _) hknown
  -- From then on the client's signature is genuine.
  have hunforged : ∀ w : World C ι α β, net.Unforged modes (setClient w a
      (net.relayedClient a serverHello publicKey packetSign unique)) V := by
    intro w
    refine hV _ (.inl ⟨a, rfl, ?_⟩)
    rw [setClient_clients_self]
    exact .tail _ (.tail _ (.tail _ (.head _)))
  have hrun := ServerConfig.afterAll_accept
    (show (net.server b).Admits (Moment.mk V 0).V
      ((net.server b).pendingAfter serverSign serverHello.unique).unique _ _ _ from hadmits)
    ((net.server b).loopEvents ((net.server b).serverHello serverSign serverHello.unique) 0)
    (Hdlc.encode (helloWire ((net.server b).serverHello serverSign serverHello.unique)))
  have haccepted := hanswered.server b ⟨V, 0⟩ (hunforged _)
    (s := net.relayedServer a b serverHello packetSign unique serverSign) (by
      rw [setClient_servers, setServer_servers_self]
      exact hrun)
  rw [setServer_setClient_setServer] at haccepted
  exact haccepted

/-! ## The sample network -/

/-- One client session of party 1, one server session of party 2, and the attacker
is party 3. The client knows the key of the party `shown`, and the server authorizes
that of the party `authorized`. -/
def sample (shown authorized : UInt8) : Network Crypto.sample UInt8 Unit Unit where
  publicKey i := (ConnSign.sample i).publicKeyBytes
  corrupt i := i = 3
  client _ := .sample 1 (ConnSign.sample shown).publicKeyBytes
  clientParty _ := 1
  client_publicKey _ := rfl
  server _ := .sample 2 7 (ConnSign.sample authorized).publicKeyBytes
  serverParty _ := 2
  server_publicKey _ := rfl

omit [DecidableEq α] [DecidableEq β] in
/-- What a genuine signature of a party needs to be unforged, in a network of sample parties. -/
theorem unforged_genuine {net : Network Crypto.sample UInt8 α β}
    (hkeys : net.publicKey = fun i => (ConnSign.sample i).publicKeyBytes) {i : UInt8}
    {w : World Crypto.sample UInt8 α β} {message : Bytes} (h : net.Signed w i message) :
    net.Unforged modes w (.genuine i message) := by
  intro j mode _
  rw [hkeys]
  exact ConnVerify.unforgeable_genuine fun hi => hi ▸ h

/-- The sample client's hello. -/
def sampleClientHello : ClientHello :=
  (ClientConfig.sample 1 []).clientHello (.sample 1) 0

theorem relay_sample (shown : UInt8) :
    (sample shown 1).Relay () () (sampleHello shown 7) (ConnSign.sample shown).publicKeyBytes
      (.sample 1) 0 (.sample 2) where
  lookup := rfl
  answered := ⟨.known rfl, rfl, rfl, rfl, rfl⟩
  started := ⟨rfl, rfl⟩

/-- The sample network after a relayed handshake. -/
def sampleWorld (shown : UInt8) : World Crypto.sample UInt8 Unit Unit :=
  setServer (setClient (sample shown 1).initial () ((sample shown 1).relayedClient ()
    (sampleHello shown 7) (ConnSign.sample shown).publicKeyBytes (.sample 1) 0)) ()
      ((sample shown 1).relayedServer () () (sampleHello shown 7) (.sample 1) 0 (.sample 2))

/-- Whoever's hello the client is shown, the server accepts its answer. -/
theorem reachable_sampleWorld (shown : UInt8) :
    (sample shown 1).Reachable modes (sampleWorld shown) := by
  have hdigest : sampleClientHello.connSignPublicKeySha256 =
      Crypto.sample.sha256 (ConnSign.sample 1).publicKeyBytes := rfl
  have hauthorized : (ServerConfig.sample 2 7 (ConnSign.sample 1).publicKeyBytes).authorizedKeys
      sampleClientHello.connSignPublicKeySha256 = some (ConnSign.sample 1).publicKeyBytes := by
    rw [hdigest]
    exact ServerConfig.sample_authorizedKeys ..
  have hlen := (ConnSign.sample 1).length_signature []
    (u64ToBeBytes 7 ++ encodeClientHello sampleClientHello)
  exact (relay_sample shown).reachable .refl rfl rfl
    ⟨hauthorized, ConnVerify.accepts_genuine hlen⟩ fun w hsigned => unforged_genuine rfl hsigned

end Network

end Axsh

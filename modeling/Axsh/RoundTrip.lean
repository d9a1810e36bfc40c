/-
# The wire format

Serializing and deserializing a packet are inverse to each other. A packet that is
serialized for a verifier comes back from it, and what is accepted is the wire form
of the packet it is accepted as: an unsigned packet is serialized to exactly these
bytes, and a signed one stands behind its type byte and a signature of the fixed
length. So a message is accepted as one kind of packet only, whoever reads it.

A payload comes back only from a verifier that has not been idle for too long.
-/

import Axsh.Crypto.Sample
import Axsh.Transport.Genuine

set_option autoImplicit false

namespace Axsh

open PayloadStream (Matches)

namespace Packet

variable {C : Crypto}

/-- The packets that are sent without a signature over them. The signature that a
`ServerComplete` carries has the length of its signer's mode. -/
def Unsigned (quantumInsecure : Bool) : Packet → Prop
  | .serverHello _ | .requestServerPubkey | .serverPubkey _ => True
  | .serverComplete signature => signature.length = connSignatureLen quantumInsecure
  | .clientHello _ | .payload _ => False

/-- The bytes a packet has on the wire, for a reader of this mode. -/
def HasForm (quantumInsecure : Bool) (data : Bytes) : Packet → Prop
  | .clientHello hello => ∃ sig : Bytes, sig.length = connSignatureLen quantumInsecure ∧
      data = packetTypeClientHello :: (sig ++ encodeClientHello hello)
  | .payload msg => ∃ sig : Bytes, sig.length = ed25519SignatureLen ∧
      data = packetTypePayload :: (sig ++ msg)
  | packet => packet.Unsigned quantumInsecure ∧ packet.serializeUnsigned = .ok data

/-! ## From packets to bytes and back -/

/-- An unsigned packet comes back, whatever the reader holds. -/
theorem deserialize_serializeUnsigned {packet : Packet} {quantumInsecure : Bool}
    (h : packet.Unsigned quantumInsecure) (V : Verifier) :
    ∃ wire, packet.serializeUnsigned = .ok wire ∧
      ∀ serverUnique connVerifier packetVerifier now later,
        (deserialize V wire serverUnique connVerifier packetVerifier quantumInsecure now
          later).1 = .ok packet := by
  -- What an unsigned packet is sent as is its wire form for any verifiers.
  have hback : ∀ wire, (∀ serverUnique connVerifier packetVerifier now,
      IsWire V serverUnique connVerifier packetVerifier quantumInsecure now wire packet) →
      ∀ serverUnique connVerifier packetVerifier now later,
        (deserialize V wire serverUnique connVerifier packetVerifier quantumInsecure now
          later).1 = .ok packet := by
    intro wire hwire serverUnique connVerifier packetVerifier now later
    apply IsWire.deserialize_eq
    exact hwire ..
  cases packet with
  | serverHello hello => exact ⟨_, rfl, hback _ fun _ _ _ _ => rfl⟩
  | requestServerPubkey => exact ⟨_, rfl, hback _ fun _ _ _ _ => rfl⟩
  | serverPubkey publicKey => exact ⟨_, rfl, hback _ fun _ _ _ _ => rfl⟩
  | serverComplete signature => exact ⟨_, rfl, hback _ fun _ _ _ _ => ⟨rfl, h⟩⟩
  | clientHello hello => exact h.elim
  | payload msg => exact h.elim

/-- A `ClientHello` comes back from a verifier of its signer's key and mode. -/
theorem deserialize_serializeConnSigned {V : Verifier} (hV : V.Correct C) (signer : ConnSign C)
    (hello : ClientHello) (serverUnique : UInt64) (coins : Bytes) :
    ∃ wire, (clientHello hello).serializeConnSigned signer serverUnique coins = .ok wire ∧
      ∀ packetVerifier now later,
        (deserialize V wire (some serverUnique) (some signer.verifier) packetVerifier
          signer.quantumInsecure now later).1 = .ok (.clientHello hello) := by
  refine ⟨_, rfl, fun packetVerifier now later => ?_⟩
  apply IsWire.deserialize_eq
  have hlen := signer.length_signature coins (u64ToBeBytes serverUnique ++ encodeClientHello hello)
  exact ⟨_, serverUnique, signer.verifier, hlen, rfl, rfl, rfl, _, _, rfl,
    signer.accepts_signature hV coins _⟩

/-- A `Payload` comes back from a verifier of its signer's key and counter that has not
been idle for too long. -/
theorem deserialize_serializePacketSigned {V : Verifier} (hV : V.Correct C)
    {signer : PacketSign C} {verifier : PacketVerify} (h : Matches signer verifier) (msg : Bytes) :
    ∃ wire next, (payload msg).serializePacketSigned signer = .ok (wire, next) ∧
      ∀ serverUnique connVerifier quantumInsecure now later,
        now - verifier.lastSuccess ≤ maxConnectionIdle →
        (deserialize V wire serverUnique connVerifier (some verifier) quantumInsecure now
          later).1 = .ok (.payload msg) := by
  refine ⟨_, _, rfl, fun serverUnique connVerifier quantumInsecure now later hidle => ?_⟩
  apply IsWire.deserialize_eq
  refine ⟨_, verifier, rfl, rfl, (C.ed25519Sign ..).2, hidle, ?_⟩
  rw [h.publicKey, h.counter]
  exact hV.ed25519 _ _

/-! ## From bytes to packets and back -/

/-- What is accepted as a packet is a form of it. -/
theorem hasForm_of_deserialize {V : Verifier} {data : Bytes} {serverUnique : Option UInt64}
    {connVerifier : Option ConnVerify} {packetVerifier : Option PacketVerify}
    {quantumInsecure : Bool} {now later : Instant} {packet : Packet}
    (h : (deserialize V data serverUnique connVerifier packetVerifier quantumInsecure now
      later).1 = .ok packet) : packet.HasForm quantumInsecure data := by
  have hwire := isWire_of_deserialize V _ _ _ _ _ _ h
  -- The form says less than what was accepted: a signature of the right length, whoever made it.
  cases packet with
  | serverHello hello => exact ⟨trivial, congrArg Except.ok hwire.symm⟩
  | requestServerPubkey => exact ⟨trivial, congrArg Except.ok hwire.symm⟩
  | serverPubkey publicKey => exact ⟨trivial, congrArg Except.ok hwire.symm⟩
  | serverComplete signature =>
    obtain ⟨hdata, hlen⟩ := hwire
    exact ⟨hlen, congrArg Except.ok hdata.symm⟩
  | clientHello hello =>
    obtain ⟨sig, -, -, hlen, hdata, -⟩ := hwire
    exact ⟨sig, hlen, hdata⟩
  | payload msg =>
    obtain ⟨sig, verifier, hdata, -, haccepts⟩ := hwire
    exact ⟨sig, haccepts.1, hdata⟩

/-- A form starts with the type byte of its packet. -/
theorem HasForm.head?_eq {quantumInsecure : Bool} {data : Bytes} {packet : Packet}
    (h : packet.HasForm quantumInsecure data) : data.head? = some packet.typeByte := by
  cases packet with
  | serverHello hello => exact Except.ok.inj h.2 ▸ rfl
  | requestServerPubkey => exact Except.ok.inj h.2 ▸ rfl
  | serverPubkey publicKey => exact Except.ok.inj h.2 ▸ rfl
  | serverComplete signature => exact Except.ok.inj h.2 ▸ rfl
  | clientHello hello =>
    obtain ⟨sig, -, rfl⟩ := h
    rfl
  | payload msg =>
    obtain ⟨sig, -, rfl⟩ := h
    rfl

/-- The six formats are disjoint, also for readers of different modes. -/
theorem HasForm.typeByte_eq {quantumInsecure other : Bool} {data : Bytes} {packet packet' : Packet}
    (h : packet.HasForm quantumInsecure data) (h' : packet'.HasForm other data) :
    packet.typeByte = packet'.typeByte :=
  Option.some.inj (h.head?_eq.symm.trans h'.head?_eq)

/-- An unsigned packet has one form. -/
theorem HasForm.unique {quantumInsecure other mode : Bool} {data data' : Bytes} {packet : Packet}
    (hunsigned : packet.Unsigned mode) (h : packet.HasForm quantumInsecure data)
    (h' : packet.HasForm other data') : data = data' := by
  cases packet with
  | serverHello hello => exact Except.ok.inj (h.2.symm.trans h'.2)
  | requestServerPubkey => exact Except.ok.inj (h.2.symm.trans h'.2)
  | serverPubkey publicKey => exact Except.ok.inj (h.2.symm.trans h'.2)
  | serverComplete signature => exact Except.ok.inj (h.2.symm.trans h'.2)
  | clientHello hello => exact hunsigned.elim
  | payload msg => exact hunsigned.elim

/-! ## The round trip -/

/-- Packets come back from their wire form, and what is accepted is the wire form of one
kind of packet. -/
theorem round_trip {V : Verifier} (hV : V.Correct C) :
    (∀ quantumInsecure packet, packet.Unsigned quantumInsecure →
      ∃ wire, packet.serializeUnsigned = .ok wire ∧
        ∀ serverUnique connVerifier packetVerifier now later,
          (deserialize V wire serverUnique connVerifier packetVerifier quantumInsecure now
            later).1 = .ok packet) ∧
    (∀ (signer : ConnSign C) hello serverUnique coins,
      ∃ wire, (clientHello hello).serializeConnSigned signer serverUnique coins = .ok wire ∧
        ∀ packetVerifier now later,
          (deserialize V wire (some serverUnique) (some signer.verifier) packetVerifier
            signer.quantumInsecure now later).1 = .ok (.clientHello hello)) ∧
    (∀ (signer : PacketSign C) verifier msg, Matches signer verifier →
      ∃ wire next, (payload msg).serializePacketSigned signer = .ok (wire, next) ∧
        ∀ serverUnique connVerifier quantumInsecure now later,
          now - verifier.lastSuccess ≤ maxConnectionIdle →
          (deserialize V wire serverUnique connVerifier (some verifier) quantumInsecure now
            later).1 = .ok (.payload msg)) ∧
    (∀ data serverUnique connVerifier packetVerifier quantumInsecure now later packet,
      (deserialize V data serverUnique connVerifier packetVerifier quantumInsecure now
        later).1 = .ok packet → packet.HasForm quantumInsecure data) ∧
    (∀ data quantumInsecure other (packet packet' : Packet), packet.HasForm quantumInsecure data →
      packet'.HasForm other data → packet.typeByte = packet'.typeByte) ∧
    ∀ data data' quantumInsecure other mode (packet : Packet), packet.Unsigned mode →
      packet.HasForm quantumInsecure data → packet.HasForm other data' → data = data' := by
  refine ⟨fun _ _ h => deserialize_serializeUnsigned h V,
    fun signer hello serverUnique coins =>
      deserialize_serializeConnSigned hV signer hello serverUnique coins,
    fun _ _ msg h => deserialize_serializePacketSigned hV h msg, ?_, ?_, ?_⟩
  · intro data serverUnique connVerifier packetVerifier quantumInsecure now later packet h
    exact hasForm_of_deserialize h
  · intro data quantumInsecure other packet packet' h h'
    exact h.typeByte_eq h'
  · intro data data' quantumInsecure other mode packet hunsigned h h'
    exact HasForm.unique hunsigned h h'

/-- The sample library's packets make the round trip. -/
theorem round_trip_sample :
    ∃ wire next, (payload [7, 8]).serializePacketSigned (PacketSign.sample 1) = .ok (wire, next) ∧
      (deserialize .acceptAll wire none none (some (.sample 1)) false 0 0).1 =
        .ok (.payload [7, 8]) := by
  obtain ⟨-, -, hpayload, -⟩ := round_trip (Verifier.correct_acceptAll Crypto.sample)
  obtain ⟨wire, next, hwire, hread⟩ := hpayload (.sample 1) (.sample 1) [7, 8] ⟨rfl, rfl⟩
  exact ⟨wire, next, hwire, hread none none false 0 0 (Nat.zero_le _)⟩

/-- A verifier of the signer's key and counter that has been idle for too long refuses the
packet. -/
theorem round_trip_fails_idle :
    ∃ wire next, (payload [7, 8]).serializePacketSigned (PacketSign.sample 1) = .ok (wire, next) ∧
      Matches (PacketSign.sample 1) (.sample 1) ∧
      (deserialize .acceptAll wire none none (some (.sample 1)) false (maxConnectionIdle + 1)
        (maxConnectionIdle + 1)).1 ≠ .ok (.payload [7, 8]) := by
  refine ⟨_, _, rfl, ⟨rfl, rfl⟩, fun h => ?_⟩
  obtain ⟨sig, verifier, -, hverifier, haccepts⟩ := isWire_of_deserialize _ _ _ _ _ _ _ h
  obtain rfl := Option.some.inj hverifier
  exact absurd haccepts.2.1 (by decide)

end Packet

end Axsh

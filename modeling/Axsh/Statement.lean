/-
# What a connection key signs

A connection key signs in two roles: a client signs the server's challenge value and its own
hello, a server signs the wire bytes of the two hellos. No tag or length is signed with them.
The messages are told apart by their lengths alone: the first has 80 bytes, a server hello
has 78, and a client hello that is accepted has more than two, in either mode. So a message
stands for one `Statement`, and a signature for nothing else.
-/

import Axsh.Packet
import Axsh.Crypto.Sample

set_option autoImplicit false

namespace Axsh

/-! ## Accepted client hellos -/

/-- `deserialize` accepts the wire bytes as this client hello in this mode, for some verdicts
and verifiers. -/
def AcceptedHello (wire : Bytes) (quantumInsecure : Bool) (hello : ClientHello) : Prop :=
  ∃ V clientHelloServerUnique connVerifier packetVerifier now later,
    (Packet.deserialize V wire clientHelloServerUnique connVerifier packetVerifier quantumInsecure
      now later).1 = .ok (.clientHello hello)

section Accepted

variable {wire : Bytes} {quantumInsecure quantumInsecure' : Bool} {hello hello' : ClientHello}

/-- What is accepted in a mode has a signature of the mode's length. With the right verdicts,
any such bytes are accepted. -/
theorem acceptedHello_iff : AcceptedHello wire quantumInsecure hello ↔
    ∃ signature, signature.length = connSignatureLen quantumInsecure ∧
      wire = signedHelloWire signature hello := by
  constructor
  · rintro ⟨V, _, _, _, now, later, h⟩
    obtain ⟨signature, -, -, hlen, hwire, -⟩ := Packet.isWire_of_deserialize V _ _ _ _ _ _ h
    exact ⟨signature, hlen, hwire⟩
  · rintro ⟨signature, hlen, rfl⟩
    have haccepts : (ConnVerify.mk (ConnSign.sample 0).publicKeyBytes quantumInsecure).Accepts
        .acceptAll signature (u64ToBeBytes 0 ++ encodeClientHello hello) :=
      ⟨hlen, _, _, (ConnSign.sample 0).decode_publicKeyBytes, fun _ => rfl, rfl⟩
    have hwire : Packet.IsWire .acceptAll (some 0)
        (some ⟨(ConnSign.sample 0).publicKeyBytes, quantumInsecure⟩) none quantumInsecure 0
        (signedHelloWire signature hello) (.clientHello hello) :=
      ⟨signature, 0, _, hlen, rfl, rfl, rfl, signature, _, rfl, haccepts⟩
    exact ⟨_, _, _, _, 0, 0, hwire.deserialize_eq _ _ _ _ _ _ 0⟩

/-- The signature lengths of the modes differ. -/
theorem connSignatureLen_injective : Function.Injective connSignatureLen := by
  intro first second h
  cases first <;> cases second <;> first | rfl | exact absurd h (by decide)

/-- The mode and the fields can be told from the wire bytes. -/
theorem AcceptedHello.unique (h : AcceptedHello wire quantumInsecure hello)
    (h' : AcceptedHello wire quantumInsecure' hello') :
    quantumInsecure = quantumInsecure' ∧ hello = hello' := by
  obtain ⟨signature, hlen, rfl⟩ := acceptedHello_iff.mp h
  obtain ⟨signature', hlen', hwire⟩ := acceptedHello_iff.mp h'
  obtain ⟨rfl, rfl⟩ := signedHelloWire_inj hwire
  exact ⟨connSignatureLen_injective (hlen.symm.trans hlen'), rfl⟩

/-- A body alone has more than two bytes. -/
theorem length_signedHelloWire_ne (signature : Bytes) (hello : ClientHello) :
    (signedHelloWire signature hello).length ≠ 2 := by
  rw [signedHelloWire, List.length_cons, List.length_append, length_encodeClientHello]
  omega

theorem AcceptedHello.length_ne (h : AcceptedHello wire quantumInsecure hello) :
    wire.length ≠ 2 := by
  obtain ⟨signature, -, rfl⟩ := acceptedHello_iff.mp h
  exact length_signedHelloWire_ne signature hello

end Accepted

/-! ## The messages of the two roles -/

/-- What a client signs: the server's challenge value and the body of its hello. -/
def clientMessage (serverUnique : UInt64) (hello : ClientHello) : Bytes :=
  u64ToBeBytes serverUnique ++ encodeClientHello hello

/-- What a server signs, the `transcript`: the wire bytes of its hello, and those of the
client's as it received them. -/
def serverMessage (serverHello : ServerHello) (clientHelloWire : Bytes) : Bytes :=
  helloWire serverHello ++ clientHelloWire

section Messages

variable {serverUnique serverUnique' : UInt64} {hello hello' : ClientHello}
  {serverHello serverHello' : ServerHello} {wire wire' : Bytes}

@[simp] theorem length_clientMessage : (clientMessage serverUnique hello).length = 80 := by
  simp [clientMessage]

@[simp] theorem length_serverMessage :
    (serverMessage serverHello wire).length = 78 + wire.length := by
  simp [serverMessage, helloWire]
  omega

theorem clientMessage_inj
    (h : clientMessage serverUnique hello = clientMessage serverUnique' hello') :
    serverUnique = serverUnique' ∧ hello = hello' := by
  obtain ⟨hunique, hhello⟩ := List.append_inj h (by simp)
  exact ⟨u64ToBeBytes_injective hunique, encodeClientHello_injective hhello⟩

theorem serverMessage_inj (h : serverMessage serverHello wire = serverMessage serverHello' wire') :
    serverHello = serverHello' ∧ wire = wire' :=
  helloWire_append_inj h

/-- Only with two bytes in place of a client hello would a server sign what a client does. -/
theorem clientMessage_ne_serverMessage (h : wire.length ≠ 2) :
    clientMessage serverUnique hello ≠ serverMessage serverHello wire := by
  intro heq
  have hlen := congrArg List.length heq
  rw [length_clientMessage, length_serverMessage] at hlen
  omega

end Messages

/-! ## Statements -/

/-- Wire bytes that are accepted as a client hello, in either mode. -/
structure ClientHelloWire where
  bytes : Bytes
  quantumInsecure : Bool
  hello : ClientHello
  accepted : AcceptedHello bytes quantumInsecure hello

@[ext]
theorem ClientHelloWire.ext {first second : ClientHelloWire} (h : first.bytes = second.bytes) :
    first = second := by
  obtain ⟨bytes, quantumInsecure, hello, haccepted⟩ := first
  obtain ⟨bytes', quantumInsecure', hello', haccepted'⟩ := second
  obtain rfl : bytes = bytes' := h
  obtain ⟨rfl, rfl⟩ := haccepted.unique haccepted'
  rfl

/-- What a party says with a signature of its connection key, in either role. -/
inductive Statement
  | client (serverUnique : UInt64) (hello : ClientHello)
  | server (serverHello : ServerHello) (clientHello : ClientHelloWire)

namespace Statement

/-- The message that is signed for a statement. -/
def message : Statement → Bytes
  | .client serverUnique hello => clientMessage serverUnique hello
  | .server serverHello clientHello => serverMessage serverHello clientHello.bytes

/-- The roles are apart without a tag. -/
theorem message_client_ne_server {serverUnique : UInt64} {hello : ClientHello}
    {serverHello : ServerHello} {clientHello : ClientHelloWire} :
    (client serverUnique hello).message ≠ (server serverHello clientHello).message :=
  clientMessage_ne_serverMessage clientHello.accepted.length_ne

/-- A message is signed for one statement only. -/
theorem message_injective : Function.Injective message := by
  intro first second h
  cases first with
  | client serverUnique hello =>
    cases second with
    | client serverUnique' hello' =>
      obtain ⟨rfl, rfl⟩ := clientMessage_inj h
      rfl
    | server serverHello clientHello => exact absurd h message_client_ne_server
  | server serverHello clientHello =>
    cases second with
    | client serverUnique hello => exact absurd h.symm message_client_ne_server
    | server serverHello' clientHello' =>
      obtain ⟨rfl, hbytes⟩ := serverMessage_inj h
      rw [ClientHelloWire.ext hbytes]

/-- Where only statements are signed, a signature that is accepted for one has been made for
it. -/
theorem stated_of_accepts {V : Verifier} {verifier : ConnVerify} {stated : Statement → Prop}
    (hunforgeable : verifier.Unforgeable V fun message =>
      ∃ made, stated made ∧ made.message = message)
    {statement : Statement} {signature : Bytes}
    (haccepts : verifier.Accepts V signature statement.message) : stated statement := by
  obtain ⟨made, hmade, hmessage⟩ := haccepts.signed hunforgeable
  rwa [← message_injective hmessage]

end Statement

/-- The messages of the two roles never coincide, and each determines its fields, those of the
accepted client hello and its mode included. So a signature that is accepted for one statement
was not made for another. -/
theorem conn_sign_roles_separated :
    (∀ serverUnique hello serverHello wire quantumInsecure accepted,
      AcceptedHello wire quantumInsecure accepted →
      clientMessage serverUnique hello ≠ serverMessage serverHello wire) ∧
    (∀ serverUnique hello serverUnique' hello',
      clientMessage serverUnique hello = clientMessage serverUnique' hello' →
      (serverUnique, hello) = (serverUnique', hello')) ∧
    (∀ serverHello wire quantumInsecure accepted serverHello' wire' quantumInsecure' accepted',
      AcceptedHello wire quantumInsecure accepted →
      AcceptedHello wire' quantumInsecure' accepted' →
      serverMessage serverHello wire = serverMessage serverHello' wire' →
      (serverHello, wire) = (serverHello', wire') ∧
        (quantumInsecure, accepted) = (quantumInsecure', accepted')) ∧
    ∀ (V : Verifier) (verifier : ConnVerify) (stated : Statement → Prop),
      (verifier.Unforgeable V fun message => ∃ made, stated made ∧ made.message = message) →
      ∀ statement signature, verifier.Accepts V signature statement.message → stated statement := by
  refine ⟨?_, ?_, ?_, ?_⟩
  · intro serverUnique hello serverHello wire quantumInsecure accepted haccepted
    exact clientMessage_ne_serverMessage haccepted.length_ne
  · intro serverUnique hello serverUnique' hello' h
    obtain ⟨rfl, rfl⟩ := clientMessage_inj h
    rfl
  · intro serverHello wire quantumInsecure accepted serverHello' wire' quantumInsecure' accepted'
      haccepted haccepted' h
    obtain ⟨rfl, rfl⟩ := serverMessage_inj h
    obtain ⟨rfl, rfl⟩ := haccepted.unique haccepted'
    exact ⟨rfl, rfl⟩
  · intro V verifier stated hunforgeable statement signature haccepts
    exact Statement.stated_of_accepts hunforgeable haccepts

/-- The hello of a client whose keys and numbers are zero. -/
def ClientHello.sample : ClientHello where
  unique := 0
  connSignPublicKeySha256 := ⟨List.replicate _ 0, List.length_replicate⟩
  packetSignPublicKey := ⟨List.replicate _ 0, List.length_replicate⟩

/-- A signer's signature for that hello is accepted for it, and whatever is accepted is for
it too, while the signer has stated nothing else. -/
theorem conn_sign_roles_separated_sample :
    AcceptedHello (signedHelloWire (List.replicate 64 0) .sample) true .sample ∧
      (∀ serverHello, clientMessage 7 .sample ≠
        serverMessage serverHello (signedHelloWire (List.replicate 64 0) .sample)) ∧
      (ConnSign.sample 0).verifier.Accepts (.genuine 0 (clientMessage 7 .sample))
        ((ConnSign.sample 0).signature [] (clientMessage 7 .sample)) (clientMessage 7 .sample) ∧
      ∀ (statement : Statement) signature, (ConnSign.sample 0).verifier.Accepts
        (.genuine 0 (clientMessage 7 .sample)) signature statement.message →
          statement = .client 7 .sample := by
  obtain ⟨hroles, -, -, hsigned⟩ := conn_sign_roles_separated
  have haccepted : AcceptedHello (signedHelloWire (List.replicate 64 0) .sample) true .sample :=
    acceptedHello_iff.mpr ⟨_, List.length_replicate, rfl⟩
  refine ⟨haccepted, fun serverHello => hroles 7 _ serverHello _ _ _ haccepted,
    ConnVerify.accepts_genuine ((ConnSign.sample 0).length_signature _ _), ?_⟩
  exact hsigned _ _ (· = .client 7 .sample)
    (ConnVerify.unforgeable_genuine fun _ => ⟨_, rfl, rfl⟩)

end Axsh

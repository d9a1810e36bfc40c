/-
# The mode of a connection

No message names the mode. A client and a server of different modes may still exchange their
hellos, since an attacker can cut the ML-DSA half off a client's signature and a server that does
not ask for it is none the wiser. The client does not return from such a handshake: the server
signs the client's hello as it has received it, and the lengths of the two modes differ. So no
attacker makes a client return with a server session of the other mode, even if the modes are
mixed in a network, and one of the two algorithms is broken for the default mode.
-/

import Axsh.Agreement

set_option autoImplicit false

namespace Axsh

namespace Network

variable {C : Crypto} {ι α β : Type} {net : Network C ι α β} {modes : Bool → Prop}
  {w : World C ι α β} {a : α} {b : β} {stream : ClientStream C}

/-- A returned client has written one hello, which its mode accepts. -/
theorem Invariant.client_acceptedHello (h : net.Invariant modes w)
    (hdone : (w.clients a).task = .done stream) {body : Bytes}
    (hwrote : .wrote (packetTypeClientHello :: body) ∈ (w.clients a).trace) :
    ∃ hello, AcceptedHello (packetTypeClientHello :: body)
      (net.client a).connSign.quantumInsecure hello := by
  have hclient := h.client a
  rw [hdone] at hclient
  obtain ⟨V, now, serverHello, publicKey, packetSign, unique, lead, signature, -, hanswered, -, -,
    htrace⟩ := hclient
  have hwire : packetTypeClientHello :: body =
      (net.client a).clientHelloWire serverHello packetSign unique := by
    rw [htrace] at hwrote
    cases hanswered.source with
    | known | fetched =>
      simpa [ClientConfig.answerEvents, ClientConfig.requestEvents, packetTypeClientHello,
        packetTypeRequestServerPubkey] using hwrote
  rw [hwire]
  exact ⟨_, acceptedHello_iff.mpr ⟨_, (net.client a).connSign.length_signature _ _, rfl⟩⟩

/-- A server has signed a client hello that its mode accepts. -/
theorem Invariant.server_acceptedHello (h : net.Invariant modes w) {serverHello : ServerHello}
    {body : Bytes} (hsigned : .signed (helloWire serverHello ++ packetTypeClientHello :: body) ∈
      (w.servers b).trace) :
    ∃ hello, AcceptedHello (packetTypeClientHello :: body)
      (net.server b).connSign.quantumInsecure hello := by
  obtain ⟨packetSign, unique, hello, publicKey, signature, n, haccepted, hmessage, -⟩ :=
    (h.server b).script.signed_of_mem hsigned
  obtain ⟨-, hwire⟩ := helloWire_append_inj hmessage
  rw [hwire]
  exact ⟨hello, haccepted.acceptedHello⟩

/-- A client and a server session that agree are of one mode. -/
theorem Invariant.mode_eq (h : net.Invariant modes w) (hdone : (w.clients a).task = .done stream)
    (hagree : Agree net w a b stream) :
    (net.server b).connSign.quantumInsecure = (net.client a).connSign.quantumInsecure := by
  obtain ⟨body, hwrote, -, hsigned⟩ := hagree.clientHello
  obtain ⟨hello, hclient⟩ := h.client_acceptedHello hdone hwrote
  obtain ⟨hello', hserver⟩ := h.server_acceptedHello hsigned
  exact (hserver.unique hclient).1

variable [DecidableEq α] [DecidableEq β]

/-- In every reachable world, with sessions of whatever modes: a client that has returned under
the key of an honest party, in a mode whose signatures are unforged, agrees with a session of that
party, and every session that it agrees with is of its own mode. -/
theorem mode_agreement (net : Network C ι α β) {modes : Bool → Prop} {w : World C ι α β}
    (hreach : net.Reachable modes w) {a : α} {stream : ClientStream C} {i : ι}
    (hmode : modes (net.client a).connSign.quantumInsecure)
    (hdone : (w.clients a).task = .done stream) (hi : ¬ net.corrupt i)
    (hasked : .asked stream.serverHello (net.publicKey i) true ∈ (w.clients a).trace) :
    (∃ b, net.serverParty b = i ∧ Agree net w a b stream) ∧
      ∀ b, Agree net w a b stream →
        (net.server b).connSign.quantumInsecure = (net.client a).connSign.quantumInsecure :=
  ⟨hreach.invariant.agree hmode hdone hi hasked, fun _ => hreach.invariant.mode_eq hdone⟩

/-- The two modes at the sample run. -/
theorem mode_agreement_sampleAgreed :
    ∃ b, Agree (sample 2 1) sampleAgreed () b (ClientConfig.established samplePending) ∧
      ((sample 2 1).server b).connSign.quantumInsecure = false := by
  have hhonest : ¬ (sample 2 1).corrupt 2 := by simp [sample]
  have hdone : (sampleAgreed.clients ()).task = .done (ClientConfig.established samplePending) :=
    rfl
  obtain ⟨⟨b, -, hagree⟩, hmodes⟩ := mode_agreement (sample 2 1)
    (reachable_sampleAgreed : (sample 2 1).Reachable (fun _ => True) _) trivial hdone hhonest
    asked_sampleAgreed
  exact ⟨b, hagree, hmodes b hagree⟩

end Network

end Axsh

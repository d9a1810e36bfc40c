/-
# What is parsed and what is verified

`deserialize` cuts a `ClientHello` twice. The hello that it returns is peeked behind a
signature of the length that its mode argument gives, and the message that is verified
is cut by the verifier's own mode and dropped. With equal modes the two are the same
bytes. With a quantum-insecure verifier and the default argument they are not.
-/

import Axsh.Detached
import Axsh.Packet

set_option autoImplicit false

namespace Axsh.Packet

open ConnVerify (acceptOnly accepts_acceptOnly)

/-- A `ClientHello` that is returned for these bytes is the message that was verified
behind the server's challenge. -/
def ParsedAuthentic (data : Bytes) (serverUnique : UInt64) (verifier : ConnVerify)
    (quantumInsecure : Bool) : Prop :=
  ∀ V packetVerifier now later hello,
    (deserialize V data (some serverUnique) (some verifier) packetVerifier quantumInsecure now
      later).1 = .ok (.clientHello hello) →
    ∃ sig, data = packetTypeClientHello :: (sig ++ encodeClientHello hello) ∧
      verifier.Accepts V sig (u64ToBeBytes serverUnique ++ encodeClientHello hello)

/-- The length of a hello behind a default-mode signature. -/
def defaultHelloLen : ℕ := connSignatureLen false + 72

/-- A returned hello is peeked behind one signature, and another one was verified. -/
theorem cuts_of_deserialize {V : Verifier} {data : Bytes} {serverUnique : UInt64}
    {verifier : ConnVerify} {packetVerifier : Option PacketVerify} {quantumInsecure : Bool}
    {now later : Instant} {hello : ClientHello}
    (h : (deserialize V data (some serverUnique) (some verifier) packetVerifier quantumInsecure now
      later).1 = .ok (.clientHello hello)) :
    ∃ sig sig' msg, data = packetTypeClientHello :: (sig ++ encodeClientHello hello) ∧
      sig.length = connSignatureLen quantumInsecure ∧
      sig ++ encodeClientHello hello = sig' ++ msg ∧
      verifier.Accepts V sig' (u64ToBeBytes serverUnique ++ msg) := by
  obtain ⟨sig, serverUnique', verifier', hlen, hdata, hunique, hverifier,
      sig', msg, hcut, haccepts⟩ :=
    isWire_of_deserialize V _ _ _ _ _ _ h
  obtain rfl := Option.some.inj hunique
  obtain rfl := Option.some.inj hverifier
  exact ⟨sig, sig', msg, hdata, hlen, hcut, haccepts⟩

/-- With a quantum-insecure verifier and the default argument, whatever the verifier accepts
behind its own cut is returned as the hello behind the other one. -/
theorem deserialize_of_cut {V : Verifier} {sig' msg : Bytes} {serverUnique : UInt64}
    {verifier : ConnVerify} (hlen : (sig' ++ msg).length = defaultHelloLen)
    (haccepts : verifier.Accepts V sig' (u64ToBeBytes serverUnique ++ msg)) :
    ∃ sig hello, sig' ++ msg = sig ++ encodeClientHello hello ∧
      sig.length = connSignatureLen false ∧
      (deserialize V (packetTypeClientHello :: (sig' ++ msg)) (some serverUnique) (some verifier)
        none false 0 0).1 = .ok (.clientHello hello) := by
  -- The parser cuts at the default mode's length, wherever the verifier has cut.
  have hsplit := List.take_append_drop (connSignatureLen false) (sig' ++ msg)
  have hfront : ((sig' ++ msg).take (connSignatureLen false)).length = connSignatureLen false :=
    List.length_take_of_le (hlen ▸ Nat.le_add_right _ _)
  have hbody : ((sig' ++ msg).drop (connSignatureLen false)).length = 72 := by
    rw [List.length_drop, hlen, defaultHelloLen, Nat.add_sub_cancel_left]
  obtain ⟨hello, hhello⟩ := exists_encodeClientHello hbody
  rw [hhello] at hsplit
  refine ⟨_, hello, hsplit.symm, hfront, ?_⟩
  apply IsWire.deserialize_eq
  refine ⟨_, serverUnique, verifier, hfront, ?_, rfl, rfl, sig', msg, hsplit, haccepts⟩
  rw [hsplit]

/-- What is parsed is what was verified exactly if the two modes are equal, or the verifier
is a default-mode one, or nothing can be returned at all: the bytes are not those of a hello
behind a default-mode signature, or the verifier's key bundle does not decode. -/
theorem parsedAuthentic_iff (data : Bytes) (serverUnique : UInt64) (verifier : ConnVerify)
    (quantumInsecure : Bool) :
    ParsedAuthentic data serverUnique verifier quantumInsecure ↔
      quantumInsecure = verifier.quantumInsecure ∨ verifier.quantumInsecure = false ∨
      (∀ rest, data = packetTypeClientHello :: rest → rest.length ≠ defaultHelloLen) ∨
      ∀ keys, decodeConnPublicKey verifier.publicKeyBundle ≠ .ok keys := by
  constructor
  · intro h
    by_contra hcondition
    push Not at hcondition
    obtain ⟨hmodes, hinsecure, ⟨rest, rfl, hlen⟩, ⟨der, key⟩, hkey⟩ := hcondition
    have hinsecure : verifier.quantumInsecure = true := Bool.eq_true_of_not_eq_false hinsecure
    obtain rfl : quantumInsecure = false := by
      rw [hinsecure] at hmodes
      exact Bool.eq_false_of_not_eq_true hmodes
    -- The verifier cuts the bytes at its own, shorter signature length.
    obtain ⟨sig', msg, rfl, hsig⟩ : ∃ sig' msg, rest = sig' ++ msg ∧
        sig'.length = connSignatureLen verifier.quantumInsecure := by
      refine ⟨_, _, (List.take_append_drop _ rest).symm, List.length_take_of_le ?_⟩
      rw [hlen, hinsecure]
      decide
    have haccepts := accepts_acceptOnly hkey hsig (u64ToBeBytes serverUnique ++ msg)
    obtain ⟨sig, hello, hcut, hfront, hreturned⟩ := deserialize_of_cut hlen haccepts
    obtain ⟨sig'', hdata, hauthentic⟩ := h _ _ _ _ _ hreturned
    -- It has accepted a longer message than the hello that was returned.
    obtain ⟨rfl, -⟩ := List.append_inj' (hcut.symm.trans (List.cons.inj hdata).2) rfl
    have hlength := hauthentic.length
    rw [hfront, hinsecure] at hlength
    exact absurd hlength (by decide)
  · intro hcondition V packetVerifier now later hello h
    obtain ⟨sig, sig', msg, hdata, hlen, hcut, haccepts⟩ := cuts_of_deserialize h
    by_cases hmodes : quantumInsecure = verifier.quantumInsecure
    · -- One length, one cut.
      obtain ⟨rfl, rfl⟩ := List.append_inj hcut
        (hlen.trans ((congrArg connSignatureLen hmodes).trans haccepts.length.symm))
      exact ⟨sig, hdata, haccepts⟩
    have hlength := congrArg List.length hcut
    rw [List.length_append, List.length_append, hlen, haccepts.length,
      length_encodeClientHello] at hlength
    -- A hello behind the short signature is too short for a default-mode verifier.
    have hinsecure : verifier.quantumInsecure ≠ false := by
      intro hdefault
      rw [hdefault] at hmodes hlength
      rw [Bool.eq_true_of_not_eq_false hmodes] at hlength
      have hshort : connSignatureLen true + 72 < connSignatureLen false := by decide
      omega
    rcases hcondition with hequal | hdefault | hother | hmalformed
    · exact absurd hequal hmodes
    · exact absurd hdefault hinsecure
    · refine absurd ?_ (hother _ hdata)
      rw [Bool.eq_true_of_not_eq_false hinsecure] at hmodes
      rw [List.length_append, hlen, length_encodeClientHello,
        Bool.eq_false_of_not_eq_true hmodes]
      rfl
    · obtain ⟨der, key, hkey, -⟩ := haccepts.halves
      exact absurd hkey (hmalformed _)

/-- A quantum-insecure verifier of a key of the sample library. -/
def insecureVerifier : ConnVerify := ⟨(ConnSign.sample 1).publicKeyBytes, true⟩

/-- Whatever the holder of that key has signed, of the right length behind a challenge, is
returned as a hello that the holder has not signed. -/
theorem unsigned_hello {sig' msg : Bytes} (hsig : sig'.length = 64) (hmsg : msg.length = 2492)
    (serverUnique : UInt64) :
    ∃ hello, (deserialize (acceptOnly (u64ToBeBytes serverUnique ++ msg))
        (packetTypeClientHello :: (sig' ++ msg)) (some serverUnique) (some insecureVerifier) none
        false 0 0).1 = .ok (.clientHello hello) ∧
      u64ToBeBytes serverUnique ++ encodeClientHello hello ≠ u64ToBeBytes serverUnique ++ msg := by
  have hlen : (sig' ++ msg).length = defaultHelloLen := by
    rw [List.length_append, hsig, hmsg]
    rfl
  have hbundle : insecureVerifier.publicKeyBundle = (ConnSign.sample 1).publicKeyBytes := rfl
  have hkey := (ConnSign.sample 1).decode_publicKeyBytes
  rw [← hbundle] at hkey
  -- The verifier takes 64 bytes as the signature and the rest as the message.
  have haccepts := accepts_acceptOnly hkey hsig (u64ToBeBytes serverUnique ++ msg)
  obtain ⟨-, hello, -, -, hreturned⟩ := deserialize_of_cut hlen haccepts
  refine ⟨hello, hreturned, fun heq => ?_⟩
  have hlength := congrArg List.length (List.append_cancel_left heq)
  rw [length_encodeClientHello, hmsg] at hlength
  omega

/-- For instance zeros, of which the holder has signed the end. -/
theorem not_parsedAuthentic_zeros :
    ∃ sig' msg : Bytes, sig' = List.replicate 64 0 ∧ msg = List.replicate 2492 0 ∧
      insecureVerifier.ComponentsUnforgeable (acceptOnly (u64ToBeBytes 7 ++ msg))
        (· = u64ToBeBytes 7 ++ msg) ∧
      (∃ hello, (deserialize (acceptOnly (u64ToBeBytes 7 ++ msg))
          (packetTypeClientHello :: (sig' ++ msg)) (some 7) (some insecureVerifier) none false 0
          0).1 = .ok (.clientHello hello) ∧
        u64ToBeBytes 7 ++ encodeClientHello hello ≠ u64ToBeBytes 7 ++ msg) ∧
      ¬ ParsedAuthentic (packetTypeClientHello :: (sig' ++ msg)) 7 insecureVerifier false := by
  refine ⟨_, _, rfl, rfl, ?_⟩
  have hunforgeable := ConnVerify.componentsUnforgeable_acceptOnly insecureVerifier
    (u64ToBeBytes 7 ++ List.replicate 2492 0)
  obtain ⟨hello, hreturned, hne⟩ :=
    unsigned_hello (List.length_replicate) (List.length_replicate) 7
  refine ⟨hunforgeable, ⟨hello, hreturned, hne⟩, fun hauthentic => ?_⟩
  obtain ⟨sig, -, hsigned⟩ := hauthentic _ _ _ _ _ hreturned
  exact hne (hsigned.signed hunforgeable.unforgeable)

end Axsh.Packet

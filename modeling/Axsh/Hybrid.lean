/-
# Hybrid signatures

A connection key signs with two algorithms at once, and a verifier of the default mode
accepts only what both accept. So a genuine signature is accepted in each of the three
forms in which it is made, and a message that is accepted has been signed as long as one
of the two algorithms cannot be forged. The other one may accept anything.
-/

import Axsh.Crypto.Sample

set_option autoImplicit false

namespace Axsh

variable {C : Crypto}

namespace ConnSign

/-- A verifier for a signer's key, of the signer's mode: its own, or one that a party of
the same mode makes from the public key bundle. -/
def HasVerifier (signer : ConnSign C) (verifier : ConnVerify) : Prop :=
  verifier = signer.verifier ∨ ∃ peer : ConnSign C, peer.quantumInsecure = signer.quantumInsecure ∧
    verifier = peer.peerVerifier signer.publicKeyBytes

/-- Of a given mode there is one verifier for a bundle. -/
theorem HasVerifier.eq {signer : ConnSign C} {verifier : ConnVerify}
    (h : signer.HasVerifier verifier) : verifier = signer.verifier := by
  rcases h with rfl | ⟨peer, hmode, rfl⟩
  · rfl
  · rw [peerVerifier, hmode, ConnSign.verifier]

variable {V : Verifier} (hV : V.Correct C) (signer : ConnSign C) (coins : Bytes)

include hV

theorem verify_sign (data : Bytes) :
    signer.verifier.verify V (signer.sign coins data) = .ok (some data) := by
  have haccepts := signer.accepts_signature hV coins data
  rcases signer.verifier.verify_eq V (signer.sign coins data) with
    ⟨sig, msg, hcut, haccepts', hrun⟩ | ⟨hrefused, -⟩
  · -- The signature has the mode's length, so the data is cut off where it was put.
    obtain ⟨-, rfl⟩ := List.append_inj hcut (haccepts.length.trans haccepts'.length.symm)
    exact hrun
  · exact absurd haccepts (hrefused _ _ rfl)

theorem verifyPrefixed_signPrefixed (lead data : Bytes) :
    signer.verifier.verifyPrefixed V lead (signer.signPrefixed coins lead data) =
      .ok (some data) := by
  have haccepts := signer.accepts_signature hV coins (lead ++ data)
  rcases signer.verifier.verifyPrefixed_eq V lead (signer.signPrefixed coins lead data) with
    ⟨sig, msg, hcut, haccepts', hrun⟩ | ⟨hrefused, -⟩
  · obtain ⟨-, rfl⟩ := List.append_inj hcut (haccepts.length.trans haccepts'.length.symm)
    exact hrun
  · exact absurd haccepts (hrefused _ _ rfl)

theorem verifyDetached_signDetached (data : Bytes) :
    signer.verifier.verifyDetached V (signer.signDetached coins data) data = .ok true := by
  apply (signer.verifier.verifyDetached_eq_true_iff V _ _).mpr
  exact ⟨_, _, rfl, signer.accepts_signature hV coins data⟩

end ConnSign

namespace ConnVerify

/-- For the keys of the bundle, at least one of the two algorithms cannot be forged; of
the other one nothing is assumed. -/
def OneUnforgeable (V : Verifier) (verifier : ConnVerify) (signed : Bytes → Prop) : Prop :=
  ∀ der key, decodeConnPublicKey verifier.publicKeyBundle = .ok (der, key) →
    V.MlDsaUnforgeable der signed ∨ V.Ed25519Unforgeable key.1 signed

theorem OneUnforgeable.unforgeable {V : Verifier} {verifier : ConnVerify} {signed : Bytes → Prop}
    (h : verifier.OneUnforgeable V signed) (hmode : verifier.quantumInsecure = false) :
    verifier.Unforgeable V signed := by
  intro der key hkey
  rcases h der key hkey with hmlDsa | hed25519
  · exact .inl ⟨hmode, hmlDsa⟩
  · exact .inr hed25519

section Sound

variable {V : Verifier} {verifier : ConnVerify} {signed : Bytes → Prop}

theorem signed_of_verify (h : verifier.Unforgeable V signed) {data msg : Bytes}
    (hverify : verifier.verify V data = .ok (some msg)) : signed msg := by
  rcases verifier.verify_eq V data with ⟨sig, msg', -, haccepts, hrun⟩ | ⟨-, hrefused⟩
  · obtain rfl := Option.some.inj (Except.ok.inj (hrun.symm.trans hverify))
    exact haccepts.signed h
  · cases hrefused.symm.trans hverify

theorem signed_of_verifyPrefixed (h : verifier.Unforgeable V signed) {lead data msg : Bytes}
    (hverify : verifier.verifyPrefixed V lead data = .ok (some msg)) : signed (lead ++ msg) := by
  rcases verifier.verifyPrefixed_eq V lead data with ⟨sig, msg', -, haccepts, hrun⟩ | ⟨-, hrefused⟩
  · obtain rfl := Option.some.inj (Except.ok.inj (hrun.symm.trans hverify))
    exact haccepts.signed h
  · cases hrefused.symm.trans hverify

end Sound

end ConnVerify

/-- What a signer signs, in either mode and in each of the three forms, its verifiers
accept and return. And whatever bytes a verifier of the default mode accepts, the message
that it returns was signed, behind the lead if there is one, while one of the two
algorithms is unforgeable for its bundle. -/
theorem hybrid_complete_sound {V : Verifier} (hV : V.Correct C) :
    (∀ (signer : ConnSign C) (verifier : ConnVerify), signer.HasVerifier verifier →
      ∀ coins lead data : Bytes,
        verifier.verify V (signer.sign coins data) = .ok (some data) ∧
        verifier.verifyPrefixed V lead (signer.signPrefixed coins lead data) = .ok (some data) ∧
        verifier.verifyDetached V (signer.signDetached coins data) data = .ok true) ∧
    ∀ (W : Verifier) (verifier : ConnVerify) (signed : Bytes → Prop),
      verifier.quantumInsecure = false → verifier.OneUnforgeable W signed →
      ∀ data msg : Bytes,
        (verifier.verify W data = .ok (some msg) → signed msg) ∧
        ∀ lead, verifier.verifyPrefixed W lead data = .ok (some msg) → signed (lead ++ msg) := by
  refine ⟨fun signer verifier hverifier coins lead data => ?_,
    fun W verifier signed hmode hone data msg => ?_⟩
  · rw [hverifier.eq]
    exact ⟨signer.verify_sign hV coins data, signer.verifyPrefixed_signPrefixed hV coins lead data,
      signer.verifyDetached_signDetached hV coins data⟩
  · have hunforgeable := hone.unforgeable hmode
    exact ⟨ConnVerify.signed_of_verify hunforgeable,
      fun lead => ConnVerify.signed_of_verifyPrefixed hunforgeable⟩

/-- Any ML-DSA signature is accepted, and Ed25519 signatures only over one message. -/
def Verifier.mlDsaForged (message : Bytes) : Verifier where
  mlDsa _ _ _ := true
  ed25519 _ signed _ := decide (signed = message)

/-- With ML-DSA forged at will, nothing but that message is accepted. -/
theorem hybrid_complete_sound_sample :
    (ConnSign.sample 0).verifier.verify .acceptAll ((ConnSign.sample 0).sign [] [7]) =
        .ok (some [7]) ∧
      ∀ data msg, (ConnSign.sample 0).verifier.verify (.mlDsaForged [7]) data = .ok (some msg) →
        msg = [7] := by
  obtain ⟨hcomplete, hsound⟩ :=
    hybrid_complete_sound (Verifier.correct_acceptAll Crypto.sample)
  refine ⟨(hcomplete (.sample 0) _ (.inl rfl) [] [] [7]).1, fun data msg hverify => ?_⟩
  have hone : (ConnSign.sample 0).verifier.OneUnforgeable (.mlDsaForged [7]) (· = [7]) :=
    fun _ _ _ => .inr fun _ _ haccepted => of_decide_eq_true haccepted
  exact (hsound (.mlDsaForged [7]) _ _ rfl hone data msg).1 hverify

end Axsh

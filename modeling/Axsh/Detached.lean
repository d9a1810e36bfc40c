/-
# Detached signatures

`verify_detached` glues its two arguments together, and `verify` cuts the result
at the mode's signature length. The cut falls between the arguments only for a
signature of that length. For any other one the message that is checked is not
`data`: it lacks the front of it, or has the end of the signature before it.
-/

import Axsh.Crypto.Sample

set_option autoImplicit false

namespace Axsh.ConnVerify

/-- Both component schemes are unforgeable for the keys of the bundle: what they
accept under them is signed. -/
def ComponentsUnforgeable (V : Verifier) (self : ConnVerify) (signed : Bytes → Prop) : Prop :=
  ∀ der key, decodeConnPublicKey self.publicKeyBundle = .ok (der, key) →
    V.MlDsaUnforgeable der signed ∧ V.Ed25519Unforgeable key.1 signed

/-- `verify_detached` accepts these two arguments only if the second was signed. -/
def DetachedSound (self : ConnVerify) (signature data : Bytes) : Prop :=
  ∀ (V : Verifier) (signed : Bytes → Prop), self.ComponentsUnforgeable V signed →
    self.verifyDetached V signature data = .ok true → signed data

theorem ComponentsUnforgeable.unforgeable {V : Verifier} {self : ConnVerify}
    {signed : Bytes → Prop} (h : self.ComponentsUnforgeable V signed) :
    self.Unforgeable V signed := by
  intro der key hkey
  exact .inr (h der key hkey).2

/-- The verdicts that accept one message, under every key and with any signature. -/
def acceptOnly (msg : Bytes) : Verifier where
  mlDsa _ message _ := decide (message = msg)
  ed25519 _ message _ := decide (message = msg)

theorem componentsUnforgeable_acceptOnly (self : ConnVerify) (msg : Bytes) :
    self.ComponentsUnforgeable (acceptOnly msg) (· = msg) := by
  intro der key _
  refine ⟨fun message signature h => ?_, fun message signature h => ?_⟩
  · exact of_decide_eq_true h
  · exact of_decide_eq_true h

theorem accepts_acceptOnly {self : ConnVerify} {der : Bytes} {key : Fixed ed25519PublicKeyLen}
    (hkey : decodeConnPublicKey self.publicKeyBundle = .ok (der, key)) {sig : Bytes}
    (hsig : sig.length = connSignatureLen self.quantumInsecure) (msg : Bytes) :
    self.Accepts (acceptOnly msg) sig msg where
  length := hsig
  halves := ⟨der, key, hkey, fun _ => decide_eq_true rfl, decide_eq_true rfl⟩

/-- A signer's own signature over that message is accepted. -/
theorem accepts_signature_acceptOnly {C : Crypto} (signer : ConnSign C) (coins msg : Bytes) :
    signer.verifier.Accepts (acceptOnly msg) (signer.signature coins msg) msg :=
  accepts_acceptOnly signer.decode_publicKeyBytes (signer.length_signature coins msg) msg

/-- `verify_detached` is sound exactly on signatures of the mode's length, apart
from arguments that no signature could make it accept: too few bytes in all, or a
key bundle that does not decode. -/
theorem detachedSound_iff (self : ConnVerify) (signature data : Bytes) :
    self.DetachedSound signature data ↔
      signature.length = connSignatureLen self.quantumInsecure ∨
      signature.length + data.length < connSignatureLen self.quantumInsecure ∨
      ∀ keys, decodeConnPublicKey self.publicKeyBundle ≠ .ok keys := by
  constructor
  · intro h
    by_contra hcondition
    push Not at hcondition
    obtain ⟨hlength, hlong, ⟨der, key⟩, hkey⟩ := hcondition
    have hsplit := List.take_append_drop (connSignatureLen self.quantumInsecure) (signature ++ data)
    have hsig : ((signature ++ data).take (connSignatureLen self.quantumInsecure)).length =
        connSignatureLen self.quantumInsecure := by
      rw [List.length_take, List.length_append]
      omega
    have hdata := h _ _ (componentsUnforgeable_acceptOnly self _)
      ((self.verifyDetached_eq_true_iff _ _ _).mpr
        ⟨_, _, hsplit.symm, accepts_acceptOnly hkey hsig _⟩)
    -- The message checked is as long as `data` only if the cut falls between the two.
    have hlen := congrArg List.length hdata
    rw [List.length_drop, List.length_append] at hlen
    omega
  · intro hcondition V signed hunforgeable haccepted
    obtain ⟨sig, msg, hsplit, haccepts⟩ := (self.verifyDetached_eq_true_iff V _ _).mp haccepted
    rcases hcondition with hlength | hshort | hmalformed
    · obtain ⟨-, rfl⟩ := List.append_inj hsplit (hlength.trans haccepts.length.symm)
      exact haccepts.signed hunforgeable.unforgeable
    · have hlen := congrArg List.length hsplit
      rw [List.length_append, List.length_append, haccepts.length] at hlen
      omega
    · obtain ⟨der, key, hkey, -⟩ := haccepts.halves
      exact absurd hkey (hmalformed _)

/-- A default-mode signer of the sample library. -/
def sampleSigner : ConnSign Crypto.sample where
  mlDsaKeyPair := (0 : UInt8)
  ed25519KeyPair := (0 : UInt8)
  quantumInsecure := false

/-- The signer signs `[1, 2]` and nothing else. With its signature and the first
byte of that message as the signature argument, the rest of the message passes as
the data that was signed. -/
theorem verifyDetached_accepts_unsigned :
    sampleSigner.verifier.ComponentsUnforgeable (acceptOnly [1, 2]) (· = [1, 2]) ∧
      sampleSigner.verifier.verifyDetached (acceptOnly [1, 2])
        (sampleSigner.signDetached [] [1, 2] ++ [1]) [2] = .ok true ∧
      ¬ ([2] : Bytes) = [1, 2] := by
  have hsplit : ∀ sig : Bytes, sig ++ [1] ++ [2] = sig ++ [1, 2] := fun sig =>
    List.append_assoc sig [1] [2]
  refine ⟨componentsUnforgeable_acceptOnly _ _, ?_, by decide⟩
  refine (verifyDetached_eq_true_iff _ _ _ _).mpr
    ⟨sampleSigner.signature [] [1, 2], [1, 2], hsplit _, ?_⟩
  exact accepts_signature_acceptOnly sampleSigner [] [1, 2]

end Axsh.ConnVerify

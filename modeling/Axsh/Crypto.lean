/-
# The cryptographic library

Signing, verification and hashing come from a library outside the program. What
the program uses of it is a parameter of the model: `Crypto` holds the key pairs,
the signing functions and the digest, with the fixed lengths of the library's
keys and signatures in their types, and `Verifier` holds the verdicts of the two
verification functions.

Verdicts are kept apart from signing because every statement about an attacker
assumes something about them. `Verifier.Correct` says that a genuine signature is
accepted. Unforgeability is relative to what a key holder has signed so far, so
it is stated about the verdicts given at one moment: a signature is accepted only
over a message that the holder of the key has signed.
-/

import Axsh.Basic

set_option autoImplicit false

namespace Axsh

def ed25519SignatureLen : ℕ := 64
def ed25519PublicKeyLen : ℕ := 32
def sha256DigestLen : ℕ := 32

/-- `ML_DSA_44_SIGNING.signature_len()`. -/
def mlDsa44SignatureLen : ℕ := 2420

/-- The length of the DER form of an ML-DSA-44 public key: 1312 bytes of key
behind the 22 bytes that name the algorithm. -/
def mlDsa44PublicKeyDerLen : ℕ := 1334

/-- Key pairs, signing and hashing. An ML-DSA signature also depends on the coins
drawn for it; an Ed25519 signature does not. -/
structure Crypto where
  MlDsaKeyPair : Type
  Ed25519KeyPair : Type
  mlDsaPublicKeyDer : MlDsaKeyPair → Fixed mlDsa44PublicKeyDerLen
  ed25519PublicKey : Ed25519KeyPair → Fixed ed25519PublicKeyLen
  mlDsaSign : MlDsaKeyPair → Bytes → Bytes → Fixed mlDsa44SignatureLen
  ed25519Sign : Ed25519KeyPair → Bytes → Fixed ed25519SignatureLen
  sha256 : Bytes → Fixed sha256DigestLen

/-- The verdicts of `UnparsedPublicKey::verify`, by public key, message and
signature. -/
structure Verifier where
  mlDsa : Bytes → Bytes → Bytes → Bool
  ed25519 : Bytes → Bytes → Bytes → Bool

namespace Verifier

variable (V : Verifier)

/-- Every ML-DSA signature that `publicKey` accepts is over a signed message. -/
def MlDsaUnforgeable (publicKey : Bytes) (signed : Bytes → Prop) : Prop :=
  ∀ message signature, V.mlDsa publicKey message signature = true → signed message

/-- Every Ed25519 signature that `publicKey` accepts is over a signed message. -/
def Ed25519Unforgeable (publicKey : Bytes) (signed : Bytes → Prop) : Prop :=
  ∀ message signature, V.ed25519 publicKey message signature = true → signed message

/-- Genuine signatures are accepted. -/
structure Correct (C : Crypto) : Prop where
  mlDsa : ∀ keyPair coins message,
    V.mlDsa (C.mlDsaPublicKeyDer keyPair).1 message (C.mlDsaSign keyPair coins message).1 = true
  ed25519 : ∀ keyPair message,
    V.ed25519 (C.ed25519PublicKey keyPair).1 message (C.ed25519Sign keyPair message).1 = true

variable {V}

theorem MlDsaUnforgeable.mono {publicKey : Bytes} {signed signed' : Bytes → Prop}
    (h : V.MlDsaUnforgeable publicKey signed) (hle : ∀ m, signed m → signed' m) :
    V.MlDsaUnforgeable publicKey signed' :=
  fun message signature hv => hle message (h message signature hv)

theorem Ed25519Unforgeable.mono {publicKey : Bytes} {signed signed' : Bytes → Prop}
    (h : V.Ed25519Unforgeable publicKey signed) (hle : ∀ m, signed m → signed' m) :
    V.Ed25519Unforgeable publicKey signed' :=
  fun message signature hv => hle message (h message signature hv)

end Verifier

end Axsh

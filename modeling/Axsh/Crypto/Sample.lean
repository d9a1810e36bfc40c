/-
# A sample library

A concrete library to run the model with. A key pair is a byte that its public
keys repeat, a signature is zeros, and the digest of some bytes is their end,
which for a key bundle is its Ed25519 key. Such signatures carry no information,
so what counts as signed is said by the verdicts: those of `recording` are given
by a table of the messages signed under each key.
-/

import Axsh.Keys

set_option autoImplicit false

namespace Axsh

/-- The sample library. -/
def Crypto.sample : Crypto where
  MlDsaKeyPair := UInt8
  Ed25519KeyPair := UInt8
  mlDsaPublicKeyDer keyPair := ⟨List.replicate _ keyPair, List.length_replicate⟩
  ed25519PublicKey keyPair := ⟨List.replicate _ keyPair, List.length_replicate⟩
  mlDsaSign _ _ _ := ⟨List.replicate _ 0, List.length_replicate⟩
  ed25519Sign _ _ := ⟨List.replicate _ 0, List.length_replicate⟩
  sha256 data := ⟨(data.reverse ++ List.replicate 32 0).take 32, by simp [sha256DigestLen]⟩

namespace Verifier

/-- The verdicts that accept anything. -/
def acceptAll : Verifier where
  mlDsa _ _ _ := true
  ed25519 _ _ _ := true

theorem correct_acceptAll (C : Crypto) : acceptAll.Correct C where
  mlDsa _ _ _ := rfl
  ed25519 _ _ := rfl

/-- The verdicts that accept nothing. -/
def rejectAll : Verifier where
  mlDsa _ _ _ := false
  ed25519 _ _ _ := false

/-- The verdicts that accept a message under a key exactly when the table holds
the two. -/
def recording (table : List (Bytes × Bytes)) : Verifier where
  mlDsa publicKey message _ := decide ((publicKey, message) ∈ table)
  ed25519 publicKey message _ := decide ((publicKey, message) ∈ table)

theorem recording_ed25519 {table : List (Bytes × Bytes)} {publicKey message signature : Bytes} :
    (recording table).ed25519 publicKey message signature = true ↔
      (publicKey, message) ∈ table := by
  rw [recording, decide_eq_true_iff]

theorem recording_mlDsa {table : List (Bytes × Bytes)} {publicKey message signature : Bytes} :
    (recording table).mlDsa publicKey message signature = true ↔
      (publicKey, message) ∈ table := by
  rw [recording, decide_eq_true_iff]

end Verifier

/-- A connection key of the sample library, in default mode. -/
def ConnSign.sample (keyPair : UInt8) : ConnSign Crypto.sample where
  mlDsaKeyPair := keyPair
  ed25519KeyPair := keyPair
  quantumInsecure := false

/-- The verdicts that accept one message, under the key of one signer. -/
def Verifier.genuine (keyPair : UInt8) (message : Bytes) : Verifier :=
  .recording [((Crypto.sample.mlDsaPublicKeyDer keyPair).1, message),
    ((Crypto.sample.ed25519PublicKey keyPair).1, message)]

/-- They accept it with any signature of the right length. -/
theorem ConnVerify.accepts_genuine {keyPair : UInt8} {message signature : Bytes} {mode : Bool}
    (h : signature.length = connSignatureLen mode) :
    (ConnVerify.mk (ConnSign.sample keyPair).publicKeyBytes mode).Accepts
      (.genuine keyPair message) signature message := by
  refine ⟨h, _, _, (ConnSign.sample keyPair).decode_publicKeyBytes, fun _ => ?_, ?_⟩
  · exact Verifier.recording_mlDsa.mpr (.head _)
  · exact Verifier.recording_ed25519.mpr (.tail _ (.head _))

/-- They are unforged for any signer, if that message has been signed by its own. -/
theorem ConnVerify.unforgeable_genuine {keyPair other : UInt8} {message : Bytes} {mode : Bool}
    {signed : Bytes → Prop} (h : other = keyPair → signed message) :
    (ConnVerify.mk (ConnSign.sample other).publicKeyBytes mode).Unforgeable
      (.genuine keyPair message) signed := by
  intro der key hkey
  rw [(ConnSign.sample other).decode_publicKeyBytes] at hkey
  obtain ⟨-, rfl⟩ := Prod.mk.inj (Except.ok.inj hkey)
  refine .inr fun message' signature hverdict => ?_
  have hmem := Verifier.recording_ed25519.mp hverdict
  rcases List.mem_cons.mp hmem with hder | hmem
  · -- An Ed25519 key is shorter than an ML-DSA key.
    have hlen := congrArg List.length (Prod.mk.inj hder).1
    rw [(Crypto.sample.mlDsaPublicKeyDer keyPair).2, (Crypto.sample.ed25519PublicKey _).2] at hlen
    exact absurd hlen (by decide)
  · obtain ⟨hkeys, rfl⟩ := Prod.mk.inj (List.mem_singleton.mp hmem)
    rcases (List.replicate_inj.mp hkeys).2 with hzero | hother
    · exact absurd hzero (by decide)
    · exact h hother

/-- A new packet signer of the sample library. -/
def PacketSign.sample (keyPair : UInt8) : PacketSign Crypto.sample := .new keyPair

/-- A new verifier of that signer's packets, made at time zero. -/
def PacketVerify.sample (keyPair : UInt8) : PacketVerify :=
  .new (PacketSign.sample keyPair).publicKeyBytes 0

end Axsh

/-
# Signers and verifiers

`ConnSign` is the long lived key of a party: an ML-DSA and an Ed25519 key pair
that sign together, or in quantum-insecure mode only the Ed25519 one.
`ConnVerify` checks its signatures from the public key bundle. `PacketSign` and
`PacketVerify` are the ephemeral keys of one direction of a connection; both
count packets, and the count is signed but never sent.

A verifier cuts its input into signature and message itself. The lemmas
`ConnVerify.verify_eq_some_iff`, `ConnVerify.verifyPrefixed_eq_some_iff` and
`PacketVerify.verify_eq` say once what each accepts.
-/

import Axsh.Crypto

set_option autoImplicit false

namespace Axsh

/-- A reading of the monotonic clock, in nanoseconds. -/
abbrev Instant := ℕ

def connPublicKeyVersion : UInt8 := 1

/-- `MAX_CONNECTION_IDLE`: one hour. -/
def maxConnectionIdle : ℕ := 3600 * 10 ^ 9

/-- `conn_signature_len`. -/
def connSignatureLen (quantumInsecure : Bool) : ℕ :=
  if quantumInsecure then ed25519SignatureLen else mlDsa44SignatureLen + ed25519SignatureLen

theorem connSignatureLen_le (quantumInsecure : Bool) : connSignatureLen quantumInsecure ≤ 2484 := by
  cases quantumInsecure <;> decide

/-! ## Packet keys -/

/-- Prefix the implicit payload packet counter to bytes for signing. -/
def packetSignatureInput (counter : UInt64) (data : Bytes) : Bytes :=
  u64ToBeBytes counter ++ data

theorem packetSignatureInput_inj {counter counter' : UInt64} {data data' : Bytes} :
    packetSignatureInput counter data = packetSignatureInput counter' data' ↔
      counter = counter' ∧ data = data' := by
  constructor
  · intro h
    obtain ⟨hcounter, hdata⟩ := List.append_inj h (by simp)
    exact ⟨u64ToBeBytes_injective hcounter, hdata⟩
  · rintro ⟨rfl, rfl⟩
    rfl

/-- The signer of one direction of a connection. -/
structure PacketSign (C : Crypto) where
  keyPair : C.Ed25519KeyPair
  signCounter : UInt64

namespace PacketSign

variable {C : Crypto}

/-- `PacketSign::new`, for the key pair that was generated. -/
def new (keyPair : C.Ed25519KeyPair) : PacketSign C := { keyPair, signCounter := 0 }

def publicKeyBytes (self : PacketSign C) : Fixed ed25519PublicKeyLen :=
  C.ed25519PublicKey self.keyPair

/-- Sign bytes with the next implicit payload counter and prepend the Ed25519 signature. -/
def sign (self : PacketSign C) (data : Bytes) : Bytes × PacketSign C :=
  let counter := self.signCounter
  let input := packetSignatureInput counter data
  let sig := (C.ed25519Sign self.keyPair input).1
  (sig ++ data, { self with signCounter := counter + 1 })

end PacketSign

/-- The verifier of one direction of a connection. -/
structure PacketVerify where
  lastSuccess : Instant
  publicKey : Fixed ed25519PublicKeyLen
  verifyCounter : UInt64
  deriving DecidableEq

namespace PacketVerify

/-- `PacketVerify::new`, at the clock reading `now`. -/
def new (publicKey : Fixed ed25519PublicKeyLen) (now : Instant) : PacketVerify :=
  { lastSuccess := now, publicKey, verifyCounter := 0 }

/-- Verify signed bytes with the stored Ed25519 public key and the next implicit
counter. `now` is the clock reading of the idle check and `later` the one that is
recorded on success. -/
def verify (V : Verifier) (self : PacketVerify) (data : Bytes) (now later : Instant) :
    Res (Option Bytes × PacketVerify) := do
  if data.length < ed25519SignatureLen then
    return (none, self)
  if now - self.lastSuccess > maxConnectionIdle then
    return (none, self)
  -- A refusal leaves the counter and the clock of the last success as they are.
  let (sig, msg) ← splitAt data ed25519SignatureLen
  let counter := self.verifyCounter
  let input := packetSignatureInput counter msg
  if V.ed25519 self.publicKey.1 input sig then
    return (some msg, { self with verifyCounter := counter + 1, lastSuccess := later })
  else
    return (none, self)

/-- The data `verify` accepts: not idle, and a signature over the next counter
and the message. -/
def Accepts (V : Verifier) (self : PacketVerify) (sig msg : Bytes) (now : Instant) : Prop :=
  sig.length = ed25519SignatureLen ∧ now - self.lastSuccess ≤ maxConnectionIdle ∧
    V.ed25519 self.publicKey.1 (packetSignatureInput self.verifyCounter msg) sig = true

/-- The verifier after it has accepted a packet. -/
def accepted (self : PacketVerify) (later : Instant) : PacketVerify :=
  { self with verifyCounter := self.verifyCounter + 1, lastSuccess := later }

@[simp] theorem accepted_publicKey (self : PacketVerify) (later : Instant) :
    (self.accepted later).publicKey = self.publicKey := rfl

@[simp] theorem accepted_verifyCounter (self : PacketVerify) (later : Instant) :
    (self.accepted later).verifyCounter = self.verifyCounter + 1 := rfl

/-- What `verify` does: it accepts and counts, or it refuses and changes nothing. -/
theorem verify_eq (V : Verifier) (self : PacketVerify) (data : Bytes) (now later : Instant) :
    (∃ sig msg, data = sig ++ msg ∧ self.Accepts V sig msg now ∧
      self.verify V data now later = .ok (some msg, self.accepted later)) ∨
    ((∀ sig msg, data = sig ++ msg → ¬ self.Accepts V sig msg now) ∧
      self.verify V data now later = .ok (none, self)) := by
  by_cases hlen : data.length < ed25519SignatureLen
  · refine .inr ⟨?_, by simp [verify, hlen, pure, Except.pure]⟩
    rintro sig msg rfl ⟨hsig, -⟩
    simp only [List.length_append] at hlen
    omega
  by_cases hidle : now - self.lastSuccess > maxConnectionIdle
  · refine .inr ⟨?_, by simp [verify, hlen, hidle, pure, Except.pure]⟩
    rintro sig msg rfl ⟨-, hnow, -⟩
    exact hnow.not_gt hidle
  -- The signature is the first 64 bytes, so only one cut of the data is in question.
  have hsplit := splitAt_eq (not_lt.mp hlen)
  have hdata := List.take_append_drop ed25519SignatureLen data
  by_cases hv : V.ed25519 self.publicKey.1
      (packetSignatureInput self.verifyCounter (data.drop ed25519SignatureLen))
      (data.take ed25519SignatureLen) = true
  · refine .inl ⟨_, _, hdata.symm, ⟨?_, not_lt.mp hidle, hv⟩, ?_⟩
    · exact List.length_take_of_le (not_lt.mp hlen)
    · simp [verify, hlen, hidle, hsplit, hv, pure, Except.pure, accepted]
  · refine .inr ⟨?_, by simp [verify, hlen, hidle, hsplit, hv, pure, Except.pure]⟩
    rintro sig msg rfl ⟨hsig, -, haccept⟩
    rw [← hsig, List.take_left, List.drop_left] at hv
    exact hv haccept

end PacketVerify

/-! ## Public key bundles -/

/-- `encode_conn_public_key`. -/
def encodeConnPublicKey (mlDsaPublicKeyDer : Bytes)
    (ed25519PublicKey : Fixed ed25519PublicKeyLen) : Bytes :=
  [connPublicKeyVersion] ++ mlDsaPublicKeyDer ++ ed25519PublicKey.1

/-- `decode_conn_public_key`. -/
def decodeConnPublicKey (data : Bytes) : Res (Bytes × Fixed ed25519PublicKeyLen) := do
  ensure (1 + 1 + ed25519PublicKeyLen ≤ data.length) "ConnSign public key bundle is too short"
  match data with
  | [] => bail "ConnSign public key bundle is empty"
  | version :: rest =>
    ensure (version = connPublicKeyVersion)
      s!"unsupported ConnSign public key bundle version {version}"
    let mid ← usizeSub rest.length ed25519PublicKeyLen
    let (mlDsaPublicKeyDer, ed25519PublicKey) ← splitAt rest mid
    match toFixed? ed25519PublicKeyLen ed25519PublicKey with
    | some ed25519PublicKey => return (mlDsaPublicKeyDer, ed25519PublicKey)
    | none => .error (.panic "unexpected Ed25519 public key length")

/-- The part of `decode_conn_public_key` after the version byte. -/
theorem decodeConnPublicKey_version {rest : Bytes} (h : ed25519PublicKeyLen < rest.length) :
    decodeConnPublicKey (connPublicKeyVersion :: rest) =
      .ok (rest.take (rest.length - ed25519PublicKeyLen),
        ⟨rest.drop (rest.length - ed25519PublicKeyLen), by rw [List.length_drop]; omega⟩) := by
  have hdrop : (rest.drop (rest.length - ed25519PublicKeyLen)).length = ed25519PublicKeyLen := by
    rw [List.length_drop]
    omega
  rw [decodeConnPublicKey, ensure_pos _ (by simp only [List.length_cons]; omega), ok_bind]
  simp only []
  rw [ensure_pos _ trivial, ok_bind, usizeSub_eq h.le, ok_bind, splitAt_eq (Nat.sub_le ..),
    ok_bind]
  simp only [toFixed?_eq hdrop]
  rfl

theorem length_encodeConnPublicKey (der : Bytes) (key : Fixed ed25519PublicKeyLen) :
    (encodeConnPublicKey der key).length = 1 + der.length + ed25519PublicKeyLen := by
  simp [encodeConnPublicKey, key.2]
  omega

/-- Bundles of a non-empty ML-DSA key decode to the pair they were made of. -/
theorem decodeConnPublicKey_encode {der : Bytes} (h : der ≠ []) (key : Fixed ed25519PublicKeyLen) :
    decodeConnPublicKey (encodeConnPublicKey der key) = .ok (der, key) := by
  have hpos := List.length_pos_iff.mpr h
  have hlen : (der ++ key.1).length = der.length + ed25519PublicKeyLen := by simp [key.2]
  have hsub : (der ++ key.1).length - ed25519PublicKeyLen = der.length := by omega
  rw [encodeConnPublicKey, List.append_assoc, List.singleton_append,
    decodeConnPublicKey_version (by omega)]
  simp only [hsub, List.take_left, List.drop_left]

/-- `decode_conn_public_key` accepts exactly the bundles of a non-empty ML-DSA key. -/
theorem decodeConnPublicKey_eq_ok_iff (data der : Bytes) (key : Fixed ed25519PublicKeyLen) :
    decodeConnPublicKey data = .ok (der, key) ↔ data = encodeConnPublicKey der key ∧ der ≠ [] := by
  constructor
  · intro h
    obtain ⟨_, hlen, h1⟩ := bind_eq_ok.mp h
    rw [ensure_eq_ok] at hlen
    -- The length check leaves room for the version, one byte of ML-DSA key and the Ed25519 key.
    match data, hlen, h1 with
    | version :: rest, hlen, h1 =>
      obtain ⟨_, hversion, -⟩ := bind_eq_ok.mp h1
      rw [ensure_eq_ok] at hversion
      subst hversion
      simp only [List.length_cons] at hlen
      rw [decodeConnPublicKey_version (by omega)] at h
      obtain ⟨hder, hkey⟩ := Prod.mk.inj (Except.ok.inj h)
      have hbytes := congrArg Subtype.val hkey
      rw [encodeConnPublicKey, ← hder, ← hbytes]
      refine ⟨?_, List.ne_nil_of_length_pos (by rw [List.length_take]; omega)⟩
      rw [List.append_assoc, List.take_append_drop, List.singleton_append]
  · rintro ⟨rfl, h⟩
    exact decodeConnPublicKey_encode h key

/-- A bundle is decoded or refused, never a reason to panic. -/
theorem decodeConnPublicKey_noPanic (data : Bytes) : (decodeConnPublicKey data).NoPanic := by
  refine Res.NoPanic.ensure_bind fun hlen => ?_
  cases data with
  | nil => exact noPanic_bail _
  | cons version rest =>
    refine Res.NoPanic.ensure_bind fun _ => ?_
    -- What the length check leaves behind the version has room for the Ed25519 key.
    rw [List.length_cons] at hlen
    have hdrop : (rest.drop (rest.length - ed25519PublicKeyLen)).length = ed25519PublicKeyLen := by
      rw [List.length_drop]
      omega
    rw [usizeSub_eq (by omega), ok_bind, splitAt_eq (Nat.sub_le ..), ok_bind]
    simp only [toFixed?_eq hdrop]
    exact noPanic_ok _

/-! ## Connection keys -/

/-- The long lived signer of a party. -/
structure ConnSign (C : Crypto) where
  mlDsaKeyPair : C.MlDsaKeyPair
  ed25519KeyPair : C.Ed25519KeyPair
  quantumInsecure : Bool

/-- Verifier for the long term `ConnSign` key. -/
structure ConnVerify where
  publicKeyBundle : Bytes
  quantumInsecure : Bool

namespace ConnSign

variable {C : Crypto} (self : ConnSign C)

/-- Return the bundled ML-DSA and Ed25519 public key bytes for this signer. -/
def publicKeyBytes : Bytes :=
  encodeConnPublicKey (C.mlDsaPublicKeyDer self.mlDsaKeyPair).1
    (C.ed25519PublicKey self.ed25519KeyPair)

/-- Sign and return just the signature. The ML-DSA half draws `coins`. -/
def signature (coins data : Bytes) : Bytes :=
  let mlDsaSig := (C.mlDsaSign self.mlDsaKeyPair coins data).1
  let ed25519Sig := (C.ed25519Sign self.ed25519KeyPair data).1
  (if !self.quantumInsecure then mlDsaSig else []) ++ ed25519Sig

/-- Produce a detached ML-DSA+Ed25519 signature bundle for `data`. -/
def signDetached (coins data : Bytes) : Bytes := self.signature coins data

/-- Sign bytes and prepend the fixed-size ML-DSA and Ed25519 signatures. -/
def sign (coins data : Bytes) : Bytes := self.signature coins data ++ data

/-- Sign `lead || data`, but only prepend the signature to `data`. -/
def signPrefixed (coins lead data : Bytes) : Bytes := self.signature coins (lead ++ data) ++ data

/-- Create a public-only verifier from this signer's public key bundle. -/
def verifier : ConnVerify :=
  { publicKeyBundle := self.publicKeyBytes, quantumInsecure := self.quantumInsecure }

/-- Create a verifier of this signer's mode for a peer's public key bundle. -/
def peerVerifier (publicKey : Bytes) : ConnVerify :=
  { publicKeyBundle := publicKey, quantumInsecure := self.quantumInsecure }

@[simp] theorem length_signature (coins data : Bytes) :
    (self.signature coins data).length = connSignatureLen self.quantumInsecure := by
  have hml := (C.mlDsaSign self.mlDsaKeyPair coins data).2
  have hed := (C.ed25519Sign self.ed25519KeyPair data).2
  cases hmode : self.quantumInsecure <;> simp [signature, connSignatureLen, hmode, hml, hed]

end ConnSign

namespace ConnVerify

variable (V : Verifier)

/-- Verify signed bytes with the stored ML-DSA and Ed25519 public keys. -/
def verify (self : ConnVerify) (data : Bytes) : Res (Option Bytes) := do
  let some (mlDsaPublicKeyDer, ed25519PublicKey) ←
    (decodeConnPublicKey self.publicKeyBundle).toOption | return none
  let totalSigLen := connSignatureLen self.quantumInsecure
  if data.length < totalSigLen then
    return none
  let (sig, msg) ← splitAt data totalSigLen
  let checked ← if self.quantumInsecure then pure (some sig) else do
    let (mlDsaSig, ed25519Sig) ← splitAt sig mlDsa44SignatureLen
    pure (if V.mlDsa mlDsaPublicKeyDer msg mlDsaSig then some ed25519Sig else none)
  let some ed25519Sig := checked | return none
  if V.ed25519 ed25519PublicKey.1 msg ed25519Sig then return some msg else return none

/-- Verify a detached ML-DSA+Ed25519 signature bundle against `data`. -/
def verifyDetached (self : ConnVerify) (signature data : Bytes) : Res Bool := do
  let signed := signature ++ data
  return (← self.verify V signed).isSome

/-- Verify `signature || data` against `lead || data`. -/
def verifyPrefixed (self : ConnVerify) (lead data : Bytes) : Res (Option Bytes) := do
  if data.length < connSignatureLen self.quantumInsecure then
    return none
  let (signature, message) ← splitAt data (connSignatureLen self.quantumInsecure)
  let signed := signature ++ lead ++ message
  let some _ ← self.verify V signed | return none
  return some message

/-- The two halves of a signature are accepted by the two keys of a bundle; in
quantum-insecure mode the signature is its Ed25519 half. -/
def HalvesAccepted (quantumInsecure : Bool) (der : Bytes) (key : Fixed ed25519PublicKeyLen)
    (sig msg : Bytes) : Prop :=
  (quantumInsecure = false → V.mlDsa der msg (sig.take mlDsa44SignatureLen) = true) ∧
    V.ed25519 key.1 msg (if quantumInsecure then sig else sig.drop mlDsa44SignatureLen) = true

instance (quantumInsecure : Bool) (der : Bytes) (key : Fixed ed25519PublicKeyLen)
    (sig msg : Bytes) : Decidable (HalvesAccepted V quantumInsecure der key sig msg) :=
  inferInstanceAs (Decidable (_ ∧ _))

/-- The signatures that `verify` accepts over a message: the mode's length, and
both halves accepted under the bundle. -/
structure Accepts (verifier : ConnVerify) (sig msg : Bytes) : Prop where
  length : sig.length = connSignatureLen verifier.quantumInsecure
  halves : ∃ der key, decodeConnPublicKey verifier.publicKeyBundle = .ok (der, key) ∧
    HalvesAccepted V verifier.quantumInsecure der key sig msg

/-- `verify` on a signature of the right length under a bundle that decodes. -/
theorem verify_append {self : ConnVerify} {der sig : Bytes} {key : Fixed ed25519PublicKeyLen}
    (hkey : decodeConnPublicKey self.publicKeyBundle = .ok (der, key))
    (hsig : sig.length = connSignatureLen self.quantumInsecure) (msg : Bytes) :
    self.verify V (sig ++ msg) = .ok
      (if HalvesAccepted V self.quantumInsecure der key sig msg then some msg else none) := by
  have hlen : ¬ (sig ++ msg).length < connSignatureLen self.quantumInsecure := by
    rw [List.length_append]
    omega
  simp only [verify, hkey, Res.toOption, ok_bind, if_neg hlen, splitAt_append hsig]
  -- In the mode without ML-DSA the whole signature is the Ed25519 one.
  cases hmode : self.quantumInsecure with
  | true =>
    cases hed : V.ed25519 key.1 msg sig <;> simp [HalvesAccepted, hed, pure, Except.pure]
  | false =>
    -- Otherwise the ML-DSA signature comes first, and both must be accepted.
    have hmid : mlDsa44SignatureLen ≤ sig.length := by
      rw [hsig, hmode, connSignatureLen]
      simp
    simp only [Bool.false_eq_true, if_false, splitAt_eq hmid, ok_bind]
    cases hml : V.mlDsa der msg (sig.take mlDsa44SignatureLen) <;>
      cases hed : V.ed25519 key.1 msg (sig.drop mlDsa44SignatureLen) <;>
      simp [HalvesAccepted, hml, hed, pure, Except.pure]

/-- What `verify` does: it returns the message behind an accepted signature of
the mode's length, or nothing. -/
theorem verify_eq (self : ConnVerify) (data : Bytes) :
    (∃ sig msg, data = sig ++ msg ∧ self.Accepts V sig msg ∧
      self.verify V data = .ok (some msg)) ∨
    ((∀ sig msg, data = sig ++ msg → ¬ self.Accepts V sig msg) ∧
      self.verify V data = .ok none) := by
  rcases (decodeConnPublicKey_noPanic self.publicKeyBundle).toOption_eq with
    ⟨⟨der, key⟩, hkey, -⟩ | ⟨hkey, hnone⟩
  · by_cases hlen : data.length < connSignatureLen self.quantumInsecure
    · refine .inr ⟨?_, by simp [verify, hkey, Res.toOption, hlen, pure, Except.pure]⟩
      rintro sig msg rfl haccepts
      have hlength := haccepts.length
      rw [List.length_append] at hlen
      omega
    · have htake := List.length_take_of_le (not_lt.mp hlen)
      have hdata := List.take_append_drop (connSignatureLen self.quantumInsecure) data
      have hverify := verify_append V hkey htake (data.drop (connSignatureLen self.quantumInsecure))
      rw [hdata] at hverify
      split_ifs at hverify with hhalves
      · exact .inl ⟨_, _, hdata.symm, ⟨htake, der, key, hkey, hhalves⟩, hverify⟩
      · refine .inr ⟨?_, hverify⟩
        -- The bundle decodes in one way, and the length fixes the cut.
        rintro sig msg rfl ⟨hsig, der', key', hkey', haccept⟩
        obtain ⟨rfl, rfl⟩ := Prod.mk.inj (Except.ok.inj (hkey.symm.trans hkey'))
        rw [← hsig, List.take_left, List.drop_left] at hhalves
        exact hhalves haccept
  · refine .inr ⟨?_, by simp [verify, hnone, pure, Except.pure]⟩
    rintro sig msg - ⟨-, der, key, hok, -⟩
    exact hkey _ hok

/-- `verify_prefixed` accepts a signature over the lead and the message it returns. -/
theorem verifyPrefixed_eq (self : ConnVerify) (lead data : Bytes) :
    (∃ sig msg, data = sig ++ msg ∧ self.Accepts V sig (lead ++ msg) ∧
      self.verifyPrefixed V lead data = .ok (some msg)) ∨
    ((∀ sig msg, data = sig ++ msg → ¬ self.Accepts V sig (lead ++ msg)) ∧
      self.verifyPrefixed V lead data = .ok none) := by
  by_cases hlen : data.length < connSignatureLen self.quantumInsecure
  · refine .inr ⟨?_, by simp [verifyPrefixed, hlen, pure, Except.pure]⟩
    rintro sig msg rfl haccepts
    have hlength := haccepts.length
    rw [List.length_append] at hlen
    omega
  obtain ⟨sig, msg, rfl, hsig⟩ : ∃ sig msg, data = sig ++ msg ∧
      sig.length = connSignatureLen self.quantumInsecure :=
    ⟨_, _, (List.take_append_drop _ _).symm, List.length_take_of_le (not_lt.mp hlen)⟩
  -- The code moves the lead in between, verifies, and returns what was behind the signature.
  have hrun : self.verifyPrefixed V lead (sig ++ msg) = (do
      let some _ ← self.verify V (sig ++ (lead ++ msg)) | return none
      return some msg) := by
    rw [verifyPrefixed, if_neg hlen]
    simp only [splitAt_append hsig, ok_bind, List.append_assoc]
  rcases self.verify_eq V (sig ++ (lead ++ msg)) with
    ⟨sig', msg', heq, haccepts, hverify⟩ | ⟨hrefused, hverify⟩
  · obtain ⟨rfl, rfl⟩ := List.append_inj heq (hsig.trans haccepts.length.symm)
    exact .inl ⟨sig, msg, rfl, haccepts, by rw [hrun, hverify]; rfl⟩
  · refine .inr ⟨?_, by rw [hrun, hverify]; rfl⟩
    intro sig' msg' heq haccepts
    obtain ⟨rfl, rfl⟩ := List.append_inj heq (hsig.trans haccepts.length.symm)
    exact hrefused _ _ rfl haccepts

/-- `verify_detached` cuts the concatenation of its arguments again, at the
mode's signature length. -/
theorem verifyDetached_eq_true_iff (self : ConnVerify) (signature data : Bytes) :
    self.verifyDetached V signature data = .ok true ↔
      ∃ sig msg, signature ++ data = sig ++ msg ∧ self.Accepts V sig msg := by
  rcases self.verify_eq V (signature ++ data) with
    ⟨sig, msg, heq, haccepts, hverify⟩ | ⟨hrefused, hverify⟩
  · simp only [verifyDetached, hverify, ok_bind]
    exact ⟨fun _ => ⟨sig, msg, heq, haccepts⟩, fun _ => rfl⟩
  · simp only [verifyDetached, hverify, ok_bind]
    constructor
    · intro h
      cases h
    · rintro ⟨sig, msg, heq, haccepts⟩
      exact absurd haccepts (hrefused sig msg heq)

/-- On a signature argument of the mode's length, `verify_detached` checks that
signature against that data. -/
theorem verifyDetached_eq_true_iff_accepts {self : ConnVerify} {signature : Bytes}
    (h : signature.length = connSignatureLen self.quantumInsecure) (data : Bytes) :
    self.verifyDetached V signature data = .ok true ↔ self.Accepts V signature data := by
  rw [verifyDetached_eq_true_iff]
  constructor
  · rintro ⟨sig, msg, heq, haccepts⟩
    obtain ⟨rfl, rfl⟩ := List.append_inj heq (h.trans haccepts.length.symm)
    exact haccepts
  · exact fun haccepts => ⟨signature, data, rfl, haccepts⟩

/-- One of the algorithms that the verifier's mode checks is unforgeable for its
bundle. -/
def Unforgeable (self : ConnVerify) (signed : Bytes → Prop) : Prop :=
  ∀ der key, decodeConnPublicKey self.publicKeyBundle = .ok (der, key) →
    self.quantumInsecure = false ∧ V.MlDsaUnforgeable der signed ∨
      V.Ed25519Unforgeable key.1 signed

variable {V}

theorem Unforgeable.mono {self : ConnVerify} {signed signed' : Bytes → Prop}
    (h : self.Unforgeable V signed) (hle : ∀ msg, signed msg → signed' msg) :
    self.Unforgeable V signed' := by
  intro der key hkey
  rcases h der key hkey with ⟨hmode, hforge⟩ | hforge
  · exact .inl ⟨hmode, hforge.mono hle⟩
  · exact .inr (hforge.mono hle)

/-- With one unforgeable algorithm left, an accepted message was signed. -/
theorem Accepts.signed {self : ConnVerify} {sig msg : Bytes} {signed : Bytes → Prop}
    (h : self.Accepts V sig msg) (hunforgeable : self.Unforgeable V signed) : signed msg := by
  obtain ⟨der, key, hkey, hmlDsa, hed25519⟩ := h.halves
  rcases hunforgeable der key hkey with ⟨hmode, hforge⟩ | hforge
  · exact hforge _ _ (hmlDsa hmode)
  · exact hforge _ _ hed25519

end ConnVerify

namespace ConnSign

variable {C : Crypto}

/-- The public key bundle of a signer decodes to its two public keys. -/
theorem decode_publicKeyBytes (self : ConnSign C) :
    decodeConnPublicKey self.publicKeyBytes =
      .ok ((C.mlDsaPublicKeyDer self.mlDsaKeyPair).1, C.ed25519PublicKey self.ed25519KeyPair) := by
  refine decodeConnPublicKey_encode (List.ne_nil_of_length_pos ?_) _
  rw [(C.mlDsaPublicKeyDer self.mlDsaKeyPair).2]
  decide

/-- A signer's own verifier accepts its signatures. -/
theorem accepts_signature {V : Verifier} (hV : V.Correct C) (self : ConnSign C)
    (coins msg : Bytes) : self.verifier.Accepts V (self.signature coins msg) msg := by
  refine ⟨self.length_signature coins msg, _, _, self.decode_publicKeyBytes, ?_⟩
  have hml := (C.mlDsaSign self.mlDsaKeyPair coins msg).2
  cases hmode : self.quantumInsecure with
  | true => simpa [ConnVerify.HalvesAccepted, verifier, hmode, signature] using hV.ed25519 _ msg
  | false =>
    have htake : (self.signature coins msg).take mlDsa44SignatureLen =
        (C.mlDsaSign self.mlDsaKeyPair coins msg).1 := by
      rw [signature, hmode]
      exact List.take_left' hml
    have hdrop : (self.signature coins msg).drop mlDsa44SignatureLen =
        (C.ed25519Sign self.ed25519KeyPair msg).1 := by
      rw [signature, hmode]
      exact List.drop_left' hml
    simp only [ConnVerify.HalvesAccepted, verifier, hmode, htake, hdrop]
    exact ⟨fun _ => hV.mlDsa _ _ _, hV.ed25519 _ msg⟩

end ConnSign

end Axsh

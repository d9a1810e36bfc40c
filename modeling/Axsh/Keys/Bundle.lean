/-
# Key bundles

The two codecs of key bundles. A private key bundle carries the lengths of its two keys ahead
of them; a public key bundle has no length and is cut 32 bytes before its end. Each decoder
accepts exactly what the encoder writes, so a bundle stands for one pair of keys only and its
fingerprint binds both of them, up to a collision of the digest.
-/

import Axsh.Keys
import Axsh.Base64

set_option autoImplicit false

namespace Axsh

/-! ## Lengths on the wire -/

/-- `u32::try_from` on a `usize`, with the error it is mapped to. -/
def u32TryFrom (n : ℕ) (message : String) : Res UInt32 :=
  if n < 2 ^ 32 then .ok (UInt32.ofNat n) else bail message

/-- `u32::to_be_bytes`. -/
def u32ToBeBytes (n : UInt32) : Bytes := BigEndian.digits 4 n.toNat

/-- `u32::from_be_bytes`. -/
def u32FromBeBytes (bytes : Fixed 4) : UInt32 := UInt32.ofNat (BigEndian.value bytes.1)

/-- `a + b` on `usize`, which panics past its range. -/
def usizeAdd (a b : ℕ) : Res ℕ :=
  if a + b < 2 ^ 64 then .ok (a + b) else .error (.panic "attempt to add with overflow")

/-- `u32::from_be_bytes(bytes.try_into().expect(message)) as usize`. -/
def usizeFromBeBytes (bytes : Bytes) (message : String) : Res ℕ :=
  match toFixed? 4 bytes with
  | some bytes => .ok (u32FromBeBytes bytes).toNat
  | none => .error (.panic message)

theorem u32TryFrom_eq_ok_iff {n : ℕ} {message : String} {m : UInt32} :
    u32TryFrom n message = .ok m ↔ n = m.toNat := by
  unfold u32TryFrom
  constructor
  · intro h
    split_ifs at h with hlt
    · rw [← Except.ok.inj h, UInt32.toNat_ofNat', Nat.mod_eq_of_lt hlt]
    · exact absurd h (bail_ne_ok _ _)
  · rintro rfl
    exact (if_pos m.toNat_lt).trans (congrArg Except.ok UInt32.ofNat_toNat)

@[simp] theorem length_u32ToBeBytes (n : UInt32) : (u32ToBeBytes n).length = 4 :=
  BigEndian.length_digits ..

theorem u32FromBeBytes_toBeBytes (n : UInt32) (h : (u32ToBeBytes n).length = 4) :
    u32FromBeBytes ⟨u32ToBeBytes n, h⟩ = n := by
  have hlt := n.toNat_lt
  apply UInt32.toNat_inj.mp
  simp only [u32FromBeBytes, u32ToBeBytes, BigEndian.value_digits, UInt32.toNat_ofNat']
  omega

theorem u32ToBeBytes_fromBeBytes (bytes : Fixed 4) :
    u32ToBeBytes (u32FromBeBytes bytes) = bytes.1 := by
  have hlt := BigEndian.value_lt bytes.1
  have hdigits := BigEndian.digits_value bytes.1
  rw [bytes.2] at hlt hdigits
  rw [u32ToBeBytes, u32FromBeBytes, UInt32.toNat_ofNat', Nat.mod_eq_of_lt (by omega), hdigits]

theorem usizeFromBeBytes_toBeBytes (n : UInt32) (message : String) :
    usizeFromBeBytes (u32ToBeBytes n) message = .ok n.toNat := by
  simp only [usizeFromBeBytes, toFixed?_eq (length_u32ToBeBytes n), u32FromBeBytes_toBeBytes]

/-- The lengths of two fields of at most `u32::MAX` bytes add up without overflow. -/
theorem usizeAdd_eq (m n : UInt32) : usizeAdd m.toNat n.toNat = .ok (m.toNat + n.toNat) := by
  have hm := m.toNat_lt
  have hn := n.toNat_lt
  exact if_pos (by omega)

/-! ## Private key bundles -/

/-- `CONN_PRIVATE_KEY_MAGIC`: the bytes of `AXSHCK02`. -/
def connPrivateKeyMagic : Bytes := [0x41, 0x58, 0x53, 0x48, 0x43, 0x4b, 0x30, 0x32]

/-- `encode_conn_private_key_bundle`. -/
def encodeConnPrivateKeyBundle (mlDsaPkcs8 ed25519Pkcs8 : Bytes) : Res Bytes := do
  let mlDsaLen ← u32TryFrom mlDsaPkcs8.length "ML-DSA PKCS#8 is too large"
  let ed25519Len ← u32TryFrom ed25519Pkcs8.length "Ed25519 PKCS#8 is too large"
  return connPrivateKeyMagic ++ (u32ToBeBytes mlDsaLen ++ (u32ToBeBytes ed25519Len ++
    (mlDsaPkcs8 ++ ed25519Pkcs8)))

/-- `decode_conn_private_key_bundle`. -/
def decodeConnPrivateKeyBundle (data : Bytes) : Res (Bytes × Bytes) := do
  ensure (connPrivateKeyMagic.length + 8 ≤ data.length) "ConnSign private key bundle is too short"
  let (magic, rest) ← splitAt data connPrivateKeyMagic.length
  ensure (magic = connPrivateKeyMagic) "unsupported ConnSign private key bundle format"
  let (mlDsaLenBytes, rest) ← splitAt rest 4
  let mlDsaLen ← usizeFromBeBytes mlDsaLenBytes "unexpected ML-DSA length width"
  let (ed25519LenBytes, rest) ← splitAt rest 4
  let ed25519Len ← usizeFromBeBytes ed25519LenBytes "unexpected Ed25519 length width"
  let total ← usizeAdd mlDsaLen ed25519Len
  ensure (rest.length = total) "ConnSign private key bundle is truncated"
  splitAt rest mlDsaLen

section PrivateKeys

variable {a b data : Bytes}

/-- A bundle with the lengths `m` and `n` and what is behind them. -/
def privateKeyBundle (m n : UInt32) (rest : Bytes) : Bytes :=
  connPrivateKeyMagic ++ (u32ToBeBytes m ++ (u32ToBeBytes n ++ rest))

theorem length_privateKeyBundle (m n : UInt32) (rest : Bytes) :
    (privateKeyBundle m n rest).length = connPrivateKeyMagic.length + 8 + rest.length := by
  simp only [privateKeyBundle, List.length_append, length_u32ToBeBytes]
  omega

theorem encodeConnPrivateKeyBundle_eq_ok_iff :
    encodeConnPrivateKeyBundle a b = .ok data ↔
      ∃ m n : UInt32, a.length = m.toNat ∧ b.length = n.toNat ∧
        data = privateKeyBundle m n (a ++ b) := by
  simp only [encodeConnPrivateKeyBundle, bind_eq_ok, u32TryFrom_eq_ok_iff, pure, Except.pure,
    Except.ok.injEq, privateKeyBundle]
  constructor
  · rintro ⟨m, hm, n, hn, rfl⟩
    exact ⟨m, n, hm, hn, rfl⟩
  · rintro ⟨m, n, hm, hn, rfl⟩
    exact ⟨m, hm, n, hn, rfl⟩

/-- Past the magic and the two lengths, the decoder compares the length of what is left. -/
theorem decodeConnPrivateKeyBundle_bundle (m n : UInt32) (rest : Bytes) :
    decodeConnPrivateKeyBundle (privateKeyBundle m n rest) = (do
      ensure (rest.length = m.toNat + n.toNat) "ConnSign private key bundle is truncated"
      splitAt rest m.toNat) := by
  have hlen := length_privateKeyBundle m n rest
  rw [decodeConnPrivateKeyBundle, ensure_pos _ (by omega), ok_bind, privateKeyBundle,
    splitAt_append rfl, ok_bind]
  simp only []
  rw [ensure_pos _ trivial, ok_bind, splitAt_append (length_u32ToBeBytes m), ok_bind]
  simp only [usizeFromBeBytes_toBeBytes, ok_bind, splitAt_append (length_u32ToBeBytes n),
    usizeAdd_eq]

/-- Data is too short, of another format, or a bundle with two lengths. -/
theorem decodeConnPrivateKeyBundle_cases (data : Bytes) :
    decodeConnPrivateKeyBundle data = bail "ConnSign private key bundle is too short" ∨
      decodeConnPrivateKeyBundle data = bail "unsupported ConnSign private key bundle format" ∨
      ∃ m n rest, data = privateKeyBundle m n rest := by
  by_cases hlen : connPrivateKeyMagic.length + 8 ≤ data.length
  · by_cases hmagic : data.take connPrivateKeyMagic.length = connPrivateKeyMagic
    · -- The eight bytes behind the magic are the lengths, whatever they are.
      obtain ⟨rest, rfl⟩ : ∃ rest, data = connPrivateKeyMagic ++ rest :=
        ⟨data.drop connPrivateKeyMagic.length, by
          conv_rhs => rw [← hmagic, List.length_take_of_le (by omega), List.take_append_drop]⟩
      rw [List.length_append] at hlen
      have hm : (rest.take 4).length = 4 := List.length_take_of_le (by omega)
      have hn : ((rest.drop 4).take 4).length = 4 :=
        List.length_take_of_le (by rw [List.length_drop]; omega)
      refine .inr (.inr ⟨u32FromBeBytes ⟨_, hm⟩, u32FromBeBytes ⟨_, hn⟩, (rest.drop 4).drop 4, ?_⟩)
      rw [privateKeyBundle, u32ToBeBytes_fromBeBytes, u32ToBeBytes_fromBeBytes,
        List.take_append_drop, List.take_append_drop]
    · refine .inr (.inl ?_)
      rw [decodeConnPrivateKeyBundle, ensure_pos _ hlen, ok_bind, splitAt_eq (by omega), ok_bind]
      simp only []
      rw [ensure_neg _ hmagic]
      rfl
  · refine .inl ?_
    rw [decodeConnPrivateKeyBundle, ensure_neg _ hlen]
    rfl

/-- `decode_conn_private_key_bundle` accepts exactly the bundles of the pair it returns. -/
theorem decodeConnPrivateKeyBundle_eq_ok_iff :
    decodeConnPrivateKeyBundle data = .ok (a, b) ↔ encodeConnPrivateKeyBundle a b = .ok data := by
  rw [encodeConnPrivateKeyBundle_eq_ok_iff]
  constructor
  · intro h
    rcases decodeConnPrivateKeyBundle_cases data with hshort | hformat | ⟨m, n, rest, rfl⟩
    · rw [hshort] at h
      exact absurd h (bail_ne_ok _ _)
    · rw [hformat] at h
      exact absurd h (bail_ne_ok _ _)
    · rw [decodeConnPrivateKeyBundle_bundle] at h
      obtain ⟨_, hlen, hsplit⟩ := bind_eq_ok.mp h
      rw [ensure_eq_ok] at hlen
      rw [splitAt_eq (by omega)] at hsplit
      obtain ⟨rfl, rfl⟩ := Prod.mk.inj (Except.ok.inj hsplit)
      refine ⟨m, n, List.length_take_of_le (by omega), ?_, ?_⟩
      · rw [List.length_drop]
        omega
      · rw [List.take_append_drop]
  · rintro ⟨m, n, hm, hn, rfl⟩
    rw [decodeConnPrivateKeyBundle_bundle, ensure_pos _ (by rw [List.length_append]; omega),
      ok_bind, splitAt_append hm]

/-- The encoder refuses a key of `2^32` bytes or more, and no others. -/
theorem exists_encodeConnPrivateKeyBundle (ha : a.length < 2 ^ 32) (hb : b.length < 2 ^ 32) :
    ∃ data, encodeConnPrivateKeyBundle a b = .ok data := by
  refine ⟨_, encodeConnPrivateKeyBundle_eq_ok_iff.mpr
    ⟨UInt32.ofNat a.length, UInt32.ofNat b.length, ?_, ?_, rfl⟩⟩
  · rw [UInt32.toNat_ofNat', Nat.mod_eq_of_lt ha]
  · rw [UInt32.toNat_ofNat', Nat.mod_eq_of_lt hb]

end PrivateKeys

/-! ## What a bundle binds -/

section Binding

variable {der der' : Bytes} {key key' : Fixed ed25519PublicKeyLen}

/-- A public key bundle is the bundle of one pair: its end is the Ed25519 key. -/
theorem encodeConnPublicKey_inj (h : encodeConnPublicKey der key = encodeConnPublicKey der' key') :
    (der, key) = (der', key') := by
  obtain ⟨hfront, hkey⟩ := List.append_inj' h (by rw [key.2, key'.2])
  rw [List.append_cancel_left hfront, Subtype.ext hkey]

/-- A private key bundle is the bundle of one pair, which the decoder returns. -/
theorem encodeConnPrivateKeyBundle_inj {a b a' b' data : Bytes}
    (h : encodeConnPrivateKeyBundle a b = .ok data)
    (h' : encodeConnPrivateKeyBundle a' b' = .ok data) : (a, b) = (a', b') := by
  rw [← decodeConnPrivateKeyBundle_eq_ok_iff] at h h'
  exact Except.ok.inj (h.symm.trans h')

/-- Fingerprint a blob and format the bytes in OpenSSH style. -/
def formatSha256Fingerprint (C : Crypto) (data : Bytes) : String :=
  formatSha256Digest (C.sha256 data)

/-- Two pairs of public keys with one fingerprint are one pair, or a collision of the digest. -/
theorem pair_eq_or_collision {C : Crypto}
    (h : formatSha256Fingerprint C (encodeConnPublicKey der key) =
      formatSha256Fingerprint C (encodeConnPublicKey der' key')) :
    (der, key) = (der', key') ∨ encodeConnPublicKey der key ≠ encodeConnPublicKey der' key' ∧
      C.sha256 (encodeConnPublicKey der key) = C.sha256 (encodeConnPublicKey der' key') := by
  by_cases heq : encodeConnPublicKey der key = encodeConnPublicKey der' key'
  · exact .inl (encodeConnPublicKey_inj heq)
  · exact .inr ⟨heq, formatSha256Digest_injective h⟩

end Binding

/-- Both codecs return the pair that was encoded, and re-encode to exactly what they accepted.
So no bundle stands for two pairs, and pairs with one fingerprint show a collision of the digest. -/
theorem key_bundles_exact (C : Crypto) :
    (∀ mlDsa ed25519 : Bytes, mlDsa.length < 2 ^ 32 → ed25519.length < 2 ^ 32 →
      ∃ bundle, encodeConnPrivateKeyBundle mlDsa ed25519 = .ok bundle ∧
        decodeConnPrivateKeyBundle bundle = .ok (mlDsa, ed25519)) ∧
    (∀ der key, der ≠ [] → decodeConnPublicKey (encodeConnPublicKey der key) = .ok (der, key)) ∧
    (∀ data mlDsa ed25519, decodeConnPrivateKeyBundle data = .ok (mlDsa, ed25519) →
      encodeConnPrivateKeyBundle mlDsa ed25519 = .ok data) ∧
    (∀ data der key, decodeConnPublicKey data = .ok (der, key) →
      encodeConnPublicKey der key = data) ∧
    (∀ mlDsa ed25519 mlDsa' ed25519' bundle,
      encodeConnPrivateKeyBundle mlDsa ed25519 = .ok bundle →
      encodeConnPrivateKeyBundle mlDsa' ed25519' = .ok bundle →
      (mlDsa, ed25519) = (mlDsa', ed25519')) ∧
    (∀ der key der' key', encodeConnPublicKey der key = encodeConnPublicKey der' key' →
      (der, key) = (der', key')) ∧
    ∀ der key der' key',
      formatSha256Fingerprint C (encodeConnPublicKey der key) =
        formatSha256Fingerprint C (encodeConnPublicKey der' key') →
      (der, key) = (der', key') ∨ encodeConnPublicKey der key ≠ encodeConnPublicKey der' key' ∧
        C.sha256 (encodeConnPublicKey der key) = C.sha256 (encodeConnPublicKey der' key') := by
  refine ⟨fun mlDsa ed25519 hml hed => ?_, fun der key hder => decodeConnPublicKey_encode hder key,
    fun data mlDsa ed25519 h => decodeConnPrivateKeyBundle_eq_ok_iff.mp h, fun data der key h => ?_,
    fun mlDsa ed25519 mlDsa' ed25519' bundle h h' => encodeConnPrivateKeyBundle_inj h h',
    fun der key der' key' h => encodeConnPublicKey_inj h,
    fun der key der' key' h => pair_eq_or_collision h⟩
  · obtain ⟨bundle, hbundle⟩ := exists_encodeConnPrivateKeyBundle hml hed
    exact ⟨bundle, hbundle, decodeConnPrivateKeyBundle_eq_ok_iff.mpr hbundle⟩
  · exact ((decodeConnPublicKey_eq_ok_iff data der key).mp h).1.symm

end Axsh

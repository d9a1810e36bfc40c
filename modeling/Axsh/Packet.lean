/-
# Packets

The six packets and their wire format: a type byte, and a body that is bare,
signed by a connection key, or signed by a packet key. Bodies are concatenations
of fixed-width fields, so a decoder accepts exactly the encodings of its values;
`Packet.deserialize` dispatches on the type byte.
-/

import Axsh.Keys

set_option autoImplicit false

namespace Axsh

def packetTypeServerHello : UInt8 := 0
def packetTypeRequestServerPubkey : UInt8 := 1
def packetTypeServerPubkey : UInt8 := 2
def packetTypeClientHello : UInt8 := 3
def packetTypeServerComplete : UInt8 := 4
def packetTypePayload : UInt8 := 5

/-- `b"AXSH"`. -/
def serverHelloMagic : Bytes := [0x41, 0x58, 0x53, 0x48]

def serverHelloVersion : UInt8 := 0x00

/-! ## The packets -/

/-- The server's connection-unique identifier, key digest and packet key. -/
structure ServerHello where
  unique : UInt64
  connSignPublicKeySha256 : Fixed sha256DigestLen
  packetSignPublicKey : Fixed ed25519PublicKeyLen
  deriving DecidableEq

/-- The client's fresh challenge value, key digest and packet key. -/
structure ClientHello where
  unique : UInt64
  connSignPublicKeySha256 : Fixed sha256DigestLen
  packetSignPublicKey : Fixed ed25519PublicKeyLen
  deriving DecidableEq

inductive Packet
  /-- Server gives parameters, but unsigned. -/
  | serverHello (hello : ServerHello)
  /-- Client requests the server's full `ConnSign` public key, unsigned. -/
  | requestServerPubkey
  /-- Server provides its full `ConnSign` public key, unsigned. -/
  | serverPubkey (publicKey : Bytes)
  /-- Client gives parameters, signed with the connection signer. -/
  | clientHello (hello : ClientHello)
  /-- Server completes the handshake with a detached signature over the
  concatenated `ServerHello` and `ClientHello` packet bytes. -/
  | serverComplete (signature : Bytes)
  /-- User payload in either direction, signed with the packet key. -/
  | payload (data : Bytes)
  deriving DecidableEq

/-- The `Debug` form of a hello, which names its fields. -/
def debugHello (name : String) (unique : UInt64) (digest key : Bytes) : String :=
  s!"{name}({name} \x7b unique: {unique}, conn_sign_public_key_sha256: {digest}, " ++
    s!"packet_sign_public_key: {key} \x7d)"

/-- The `Debug` form of a packet. -/
def Packet.debug : Packet → String
  | .serverHello h => debugHello "ServerHello" h.unique h.connSignPublicKeySha256.1
      h.packetSignPublicKey.1
  | .requestServerPubkey => "RequestServerPubkey"
  | .serverPubkey publicKey => s!"ServerPubkey(ServerPubkey({publicKey}))"
  | .clientHello h => debugHello "ClientHello" h.unique h.connSignPublicKeySha256.1
      h.packetSignPublicKey.1
  | .serverComplete signature => s!"ServerComplete(ServerComplete \x7b signature: {signature} \x7d)"
  | .payload data => s!"Payload({data})"

/-! ## Fields -/

/-- Decode a fixed-width, big-endian `u64` and return the remaining bytes. -/
def takeU64 (data : Bytes) : Res (UInt64 × Bytes) := do
  ensure (8 ≤ data.length) s!"expected at least 8 bytes, got {data.length}"
  let (head, rest) ← splitAt data 8
  match toFixed? 8 head with
  | some bytes => return (u64FromBeBytes bytes, rest)
  | none => bail "failed to decode u64"

/-- Take a fixed-width byte array and return the remaining bytes. -/
def takeFixed (n : ℕ) (data : Bytes) : Res (Fixed n × Bytes) := do
  ensure (n ≤ data.length) s!"expected at least {n} bytes, got {data.length}"
  let (head, rest) ← splitAt data n
  match toFixed? n head with
  | some bytes => return (bytes, rest)
  | none => bail "failed to decode fixed-width bytes"

/-- Return the signed message portion after a fixed-width signature. -/
def signedMessage (data : Bytes) (signatureLen : ℕ) : Res Bytes := do
  ensure (signatureLen ≤ data.length)
    s!"signed packet truncated: {data.length} < {signatureLen}"
  slice data signatureLen data.length

theorem takeFixed_append {n : ℕ} (bytes : Fixed n) (rest : Bytes) :
    takeFixed n (bytes.1 ++ rest) = .ok (bytes, rest) := by
  rw [takeFixed, ensure_pos _ (by simp [bytes.2]), ok_bind, splitAt_append bytes.2, ok_bind]
  simp only [toFixed?_eq bytes.2]
  rfl

/-- A fixed-width field is the front of the data it is taken from. -/
theorem takeFixed_eq_ok_iff {n : ℕ} (data rest : Bytes) (bytes : Fixed n) :
    takeFixed n data = .ok (bytes, rest) ↔ data = bytes.1 ++ rest := by
  constructor
  · intro h
    obtain ⟨_, hlen, -⟩ := bind_eq_ok.mp h
    have htake := List.length_take_of_le (ensure_eq_ok.mp hlen)
    have hdata := List.take_append_drop n data
    have hrun := takeFixed_append ⟨data.take n, htake⟩ (data.drop n)
    rw [hdata, h] at hrun
    obtain ⟨rfl, rfl⟩ := Prod.mk.inj (Except.ok.inj hrun)
    exact hdata.symm
  · rintro rfl
    exact takeFixed_append bytes rest

theorem takeU64_append (n : UInt64) (rest : Bytes) :
    takeU64 (u64ToBeBytes n ++ rest) = .ok (n, rest) := by
  have hlen := length_u64ToBeBytes n
  rw [takeU64, ensure_pos _ (by simp), ok_bind, splitAt_append hlen, ok_bind]
  simp only [toFixed?_eq hlen, u64FromBeBytes_toBeBytes]
  rfl

/-- A `u64` is the front of the data it is taken from. -/
theorem takeU64_eq_ok_iff (data rest : Bytes) (n : UInt64) :
    takeU64 data = .ok (n, rest) ↔ data = u64ToBeBytes n ++ rest := by
  constructor
  · intro h
    obtain ⟨_, hlen, -⟩ := bind_eq_ok.mp h
    have htake := List.length_take_of_le (ensure_eq_ok.mp hlen)
    have hdata := List.take_append_drop 8 data
    have hrun := takeU64_append (u64FromBeBytes ⟨data.take 8, htake⟩) (data.drop 8)
    rw [u64ToBeBytes_fromBeBytes, hdata, h] at hrun
    obtain ⟨rfl, rfl⟩ := Prod.mk.inj (Except.ok.inj hrun)
    rw [u64ToBeBytes_fromBeBytes, hdata]
  · rintro rfl
    exact takeU64_append n rest

theorem signedMessage_eq_ok_iff (data msg : Bytes) (n : ℕ) :
    signedMessage data n = .ok msg ↔ ∃ sig, sig.length = n ∧ data = sig ++ msg := by
  constructor
  · intro h
    obtain ⟨_, hlen, hslice⟩ := bind_eq_ok.mp h
    rw [ensure_eq_ok] at hlen
    rw [slice_eq hlen le_rfl, List.take_length] at hslice
    refine ⟨data.take n, List.length_take_of_le hlen, ?_⟩
    rw [← Except.ok.inj hslice, List.take_append_drop]
  · rintro ⟨sig, rfl, rfl⟩
    rw [signedMessage, ensure_pos _ (by simp), ok_bind, slice_eq (by simp) le_rfl,
      List.take_length, List.drop_left]

/-! ## Bodies -/

/-- Encode a server hello body with the server challenge and both public keys. -/
def encodeServerHello (hello : ServerHello) : Bytes :=
  serverHelloMagic ++ [serverHelloVersion] ++ u64ToBeBytes hello.unique ++
    hello.connSignPublicKeySha256.1 ++ hello.packetSignPublicKey.1

/-- `{:#04x}`. -/
def hexByte (byte : UInt8) : String :=
  let digits := Nat.toDigits 16 byte.toNat
  "0x" ++ String.ofList (List.replicate (2 - digits.length) '0' ++ digits)

/-- Decode a server hello body. -/
def decodeServerHello (data : Bytes) : Res ServerHello := do
  let (magic, rest) ← takeFixed serverHelloMagic.length data
  ensure (magic.1 = serverHelloMagic) s!"server hello magic {magic.1} != {serverHelloMagic}"
  let (version, rest) ← takeFixed 1 rest
  let version ← index version.1 0
  ensure (version = serverHelloVersion)
    s!"unsupported server hello version {hexByte version}"
  let (unique, rest) ← takeU64 rest
  let (connSignPublicKeySha256, rest) ← takeFixed sha256DigestLen rest
  let (packetSignPublicKey, rest) ← takeFixed ed25519PublicKeyLen rest
  ensure (rest = []) "server hello has trailing bytes"
  return { unique, connSignPublicKeySha256, packetSignPublicKey }

/-- Encode a client hello body with the client challenge and both public keys. -/
def encodeClientHello (hello : ClientHello) : Bytes :=
  u64ToBeBytes hello.unique ++ hello.connSignPublicKeySha256.1 ++ hello.packetSignPublicKey.1

/-- Decode a client hello body. -/
def decodeClientHello (data : Bytes) : Res ClientHello := do
  let (unique, rest) ← takeU64 data
  let (connSignPublicKeySha256, rest) ← takeFixed sha256DigestLen rest
  let (packetSignPublicKey, rest) ← takeFixed ed25519PublicKeyLen rest
  ensure (rest = []) "client hello has trailing bytes"
  return { unique, connSignPublicKeySha256, packetSignPublicKey }

/-- Decode a detached server-complete signature payload. -/
def decodeServerComplete (data : Bytes) (quantumInsecure : Bool) : Res Bytes := do
  ensure (data.length = connSignatureLen quantumInsecure)
    s!"server complete signature length {data.length} != {connSignatureLen quantumInsecure}"
  return data

/-- The wire bytes of a server hello. -/
def helloWire (hello : ServerHello) : Bytes := packetTypeServerHello :: encodeServerHello hello

/-- The wire bytes of a client hello behind a signature. -/
def signedHelloWire (signature : Bytes) (hello : ClientHello) : Bytes :=
  packetTypeClientHello :: (signature ++ encodeClientHello hello)

@[simp] theorem length_encodeServerHello (hello : ServerHello) :
    (encodeServerHello hello).length = 77 := by
  simp [encodeServerHello, serverHelloMagic, hello.connSignPublicKeySha256.2,
    hello.packetSignPublicKey.2, sha256DigestLen, ed25519PublicKeyLen]

@[simp] theorem length_encodeClientHello (hello : ClientHello) :
    (encodeClientHello hello).length = 72 := by
  simp [encodeClientHello, hello.connSignPublicKeySha256.2, hello.packetSignPublicKey.2,
    sha256DigestLen, ed25519PublicKeyLen]

/-- A client hello body decodes to the hello it encodes, and nothing else does. -/
theorem decodeClientHello_eq_ok_iff (data : Bytes) (hello : ClientHello) :
    decodeClientHello data = .ok hello ↔ data = encodeClientHello hello := by
  constructor
  · intro h
    -- Each field is the front of what is left, so the data is put together again field by field.
    obtain ⟨⟨unique, rest⟩, hunique, h⟩ := bind_eq_ok.mp h
    obtain ⟨⟨digest, rest'⟩, hdigest, h⟩ := bind_eq_ok.mp h
    obtain ⟨⟨key, rest''⟩, hkey, h⟩ := bind_eq_ok.mp h
    obtain ⟨_, hempty, h⟩ := bind_eq_ok.mp h
    rw [takeU64_eq_ok_iff] at hunique
    rw [takeFixed_eq_ok_iff] at hdigest hkey
    rw [ensure_eq_ok] at hempty
    rw [← Except.ok.inj h, hunique, hdigest, hkey, hempty]
    simp [encodeClientHello]
  · rintro rfl
    rw [encodeClientHello, List.append_assoc, decodeClientHello, takeU64_append, ok_bind]
    simp only [takeFixed_append, ok_bind]
    rw [← List.append_nil hello.packetSignPublicKey.1, takeFixed_append, ok_bind]
    rfl

/-- Any bytes of the right length are a client hello body. -/
theorem exists_encodeClientHello {body : Bytes} (h : body.length = 72) :
    ∃ hello, body = encodeClientHello hello := by
  have hunique : (body.take 8).length = 8 := List.length_take_of_le (by omega)
  have hdigest : ((body.drop 8).take 32).length = sha256DigestLen := by
    rw [List.length_take, List.length_drop, h]
    rfl
  have hkey : ((body.drop 8).drop 32).length = ed25519PublicKeyLen := by
    rw [List.length_drop, List.length_drop, h]
    rfl
  refine ⟨⟨u64FromBeBytes ⟨_, hunique⟩, ⟨_, hdigest⟩, ⟨_, hkey⟩⟩, ?_⟩
  rw [encodeClientHello, u64ToBeBytes_fromBeBytes, List.append_assoc, List.take_append_drop,
    List.take_append_drop]

/-- A server hello body decodes to the hello it encodes, and nothing else does. -/
theorem decodeServerHello_eq_ok_iff (data : Bytes) (hello : ServerHello) :
    decodeServerHello data = .ok hello ↔ data = encodeServerHello hello := by
  constructor
  · intro h
    obtain ⟨⟨magic, rest⟩, hmagic, h⟩ := bind_eq_ok.mp h
    obtain ⟨_, hmagicOk, h⟩ := bind_eq_ok.mp h
    obtain ⟨⟨version, rest'⟩, hversion, h⟩ := bind_eq_ok.mp h
    obtain ⟨byte, hbyte, h⟩ := bind_eq_ok.mp h
    obtain ⟨_, hversionOk, h⟩ := bind_eq_ok.mp h
    obtain ⟨⟨unique, rest''⟩, hunique, h⟩ := bind_eq_ok.mp h
    obtain ⟨⟨digest, tail⟩, hdigest, h⟩ := bind_eq_ok.mp h
    obtain ⟨⟨key, tail'⟩, hkey, h⟩ := bind_eq_ok.mp h
    obtain ⟨_, hempty, h⟩ := bind_eq_ok.mp h
    rw [takeFixed_eq_ok_iff] at hmagic hversion hdigest hkey
    rw [takeU64_eq_ok_iff] at hunique
    rw [ensure_eq_ok] at hmagicOk hversionOk hempty
    -- The version is an array of one byte, and that byte is the version.
    have hone : version.1 = [serverHelloVersion] := by
      obtain ⟨only, honly⟩ := List.length_eq_one_iff.mp version.2
      rw [honly] at hbyte ⊢
      rw [← hversionOk, ← Except.ok.inj hbyte]
    rw [← Except.ok.inj h, hmagic, hversion, hunique, hdigest, hkey, hempty, hmagicOk, hone]
    simp [encodeServerHello]
  · rintro rfl
    have hmagic := takeFixed_append (⟨serverHelloMagic, rfl⟩ : Fixed serverHelloMagic.length)
    have hversion := takeFixed_append (⟨[serverHelloVersion], rfl⟩ : Fixed 1)
    have hend := takeFixed_append hello.packetSignPublicKey []
    rw [List.append_nil] at hend
    simp only [encodeServerHello, List.append_assoc, decodeServerHello]
    rw [hmagic, ok_bind, ensure_pos _ rfl, ok_bind, hversion, ok_bind]
    simp only [index_eq (show 0 < [serverHelloVersion].length by decide), ok_bind,
      List.getElem_cons_zero]
    rw [ensure_pos _ trivial, ok_bind, takeU64_append, ok_bind, takeFixed_append, ok_bind]
    simp only [hend, ok_bind]
    rfl

theorem encodeServerHello_injective : Function.Injective encodeServerHello := by
  intro first second h
  have hdecode := (decodeServerHello_eq_ok_iff _ first).mpr h.symm
  rw [(decodeServerHello_eq_ok_iff _ second).mpr rfl] at hdecode
  exact (Except.ok.inj hdecode).symm

theorem encodeClientHello_injective : Function.Injective encodeClientHello := by
  intro first second h
  have hdecode := (decodeClientHello_eq_ok_iff _ first).mpr h.symm
  rw [(decodeClientHello_eq_ok_iff _ second).mpr rfl] at hdecode
  exact (Except.ok.inj hdecode).symm

/-- A server hello has a fixed length on the wire, so what is behind it can be told from it. -/
theorem helloWire_append_inj {hello hello' : ServerHello} {rest rest' : Bytes}
    (h : helloWire hello ++ rest = helloWire hello' ++ rest') : hello = hello' ∧ rest = rest' := by
  obtain ⟨hwire, hrest⟩ := List.append_inj h (by simp [helloWire])
  exact ⟨encodeServerHello_injective (List.cons.inj hwire).2, hrest⟩

/-- A signed client hello is cut before its body, which has a fixed length. -/
theorem signedHelloWire_inj {signature signature' : Bytes} {hello hello' : ClientHello}
    (h : signedHelloWire signature hello = signedHelloWire signature' hello') :
    signature = signature' ∧ hello = hello' := by
  obtain ⟨hsignature, hbody⟩ := List.append_inj' (List.cons.inj h).2 (by simp)
  exact ⟨hsignature, encodeClientHello_injective hbody⟩

theorem decodeServerComplete_eq_ok_iff (data signature : Bytes) (quantumInsecure : Bool) :
    decodeServerComplete data quantumInsecure = .ok signature ↔
      data = signature ∧ signature.length = connSignatureLen quantumInsecure := by
  constructor
  · intro h
    obtain ⟨_, hlen, h⟩ := bind_eq_ok.mp h
    rw [ensure_eq_ok] at hlen
    obtain rfl := Except.ok.inj h
    exact ⟨rfl, hlen⟩
  · rintro ⟨rfl, hlen⟩
    rw [decodeServerComplete, ensure_pos _ hlen]
    rfl

/-! ## Signing and verifying bodies -/

/-- Sign a connection-authenticated packet body and prefix the packet type byte. -/
def serializeConnSigned {C : Crypto} (packetType : UInt8) (serverUnique : UInt64) (body : Bytes)
    (signer : ConnSign C) (coins : Bytes) : Bytes :=
  let signed := signer.signPrefixed coins (u64ToBeBytes serverUnique) body
  packetType :: signed

/-- Sign a payload packet body and prefix the packet type byte. -/
def serializePacketSigned {C : Crypto} (packetType : UInt8) (body : Bytes)
    (signer : PacketSign C) : Bytes × PacketSign C :=
  let (signed, signer) := signer.sign body
  (packetType :: signed, signer)

/-- Verify a connection-authenticated wire body and return owned message bytes
for further parsing. -/
def verifyConnSigned (V : Verifier) (data : Bytes) (serverUnique : UInt64)
    (verifier : ConnVerify) : Res Bytes := do
  match ← verifier.verifyPrefixed V (u64ToBeBytes serverUnique) data with
  | some message => return message
  | none => bail "connection signature verification failed"

/-- Verify a payload wire body and return owned message bytes for further
parsing, with the verifier after the call. -/
def verifyPacketSigned (V : Verifier) (data : Bytes) (verifier : PacketVerify)
    (now later : Instant) : Res Bytes × PacketVerify :=
  match verifier.verify V data now later with
  | .ok (some message, verifier) => (.ok message, verifier)
  | .ok (none, verifier) => (bail "packet signature verification failed", verifier)
  | .error e => (.error e, verifier)

namespace Packet

/-- Serialize an unsigned packet into the wire format. -/
def serializeUnsigned : Packet → Res Bytes
  | .serverHello hello => .ok (packetTypeServerHello :: encodeServerHello hello)
  | .requestServerPubkey => .ok [packetTypeRequestServerPubkey]
  | .serverPubkey publicKey => .ok (packetTypeServerPubkey :: publicKey)
  | .serverComplete signature => .ok (packetTypeServerComplete :: signature)
  | .clientHello _ => bail "ClientHello requires a ConnSign signer"
  | .payload _ => bail "Payload requires a PacketSign signer"

/-- Serialize a `ClientHello` with a `ConnSign` signer and an implicit server
challenge. -/
def serializeConnSigned {C : Crypto} (packet : Packet) (signer : ConnSign C)
    (serverUnique : UInt64) (coins : Bytes) : Res Bytes :=
  match packet with
  | .clientHello hello =>
    .ok (Axsh.serializeConnSigned packetTypeClientHello serverUnique (encodeClientHello hello)
      signer coins)
  | _ => bail "only ClientHello uses ConnSign packet signing"

/-- Serialize a `Payload` with a `PacketSign` signer. -/
def serializePacketSigned {C : Crypto} (packet : Packet) (signer : PacketSign C) :
    Res (Bytes × PacketSign C) :=
  match packet with
  | .payload data => .ok (Axsh.serializePacketSigned packetTypePayload data signer)
  | _ => bail "only Payload uses PacketSign packet signing"

/-- Parse a `ClientHello` from wire bytes without verifying its signature. -/
def peekClientHello (data : Bytes) (quantumInsecure : Bool) : Res ClientHello :=
  match data with
  | [] => bail "packet is empty"
  | packetType :: rest => do
    ensure (packetType = packetTypeClientHello)
      s!"expected ClientHello, got packet type {packetType}"
    let body ← signedMessage rest (connSignatureLen quantumInsecure)
    decodeClientHello body

/-- Return the packet type byte from wire bytes. -/
def peekType (data : Bytes) : Res UInt8 :=
  match data with
  | [] => bail "packet is empty"
  | packetType :: _ => .ok packetType

/-- Parse a packet from the wire format, using external verifiers when the packet
does not carry its own verification key. The second component is the packet
verifier after the call; `now` and `later` are the clock readings it may make. -/
def deserialize (V : Verifier) (data : Bytes) (clientHelloServerUnique : Option UInt64)
    (connVerifier : Option ConnVerify) (packetVerifier : Option PacketVerify)
    (quantumInsecure : Bool) (now later : Instant) : Res Packet × Option PacketVerify :=
  match data with
  | [] => (bail "packet is empty", packetVerifier)
  | packetType :: rest =>
    if packetType = packetTypeServerHello then
      ((do return .serverHello (← decodeServerHello rest)), packetVerifier)
    else if packetType = packetTypeRequestServerPubkey then
      ((do
        ensure (rest = []) "request server pubkey has trailing bytes"
        return .requestServerPubkey), packetVerifier)
    else if packetType = packetTypeServerPubkey then
      (.ok (.serverPubkey rest), packetVerifier)
    else if packetType = packetTypeClientHello then
      ((do
        -- The body is cut off with the caller's mode here, and with the verifier's own mode below;
        -- the message that the verifier returns is dropped.
        let hello ← peekClientHello data quantumInsecure
        let some serverUnique := clientHelloServerUnique
          | bail "missing ClientHello server_unique"
        let some verifier := connVerifier | bail "missing conn verifier"
        let _ ← verifyConnSigned V rest serverUnique verifier
        return .clientHello hello), packetVerifier)
    else if packetType = packetTypeServerComplete then
      ((do return .serverComplete (← decodeServerComplete rest quantumInsecure)), packetVerifier)
    else if packetType = packetTypePayload then
      match packetVerifier with
      | none => (bail "missing packet verifier", none)
      | some verifier =>
        let (result, verifier) := verifyPacketSigned V rest verifier now later
        ((do return .payload (← result)), some verifier)
    else (bail s!"unknown packet type {packetType}", packetVerifier)

/-! ## What is accepted -/

/-- The wire forms that `deserialize` accepts as a packet. -/
def IsWire (V : Verifier) (clientHelloServerUnique : Option UInt64)
    (connVerifier : Option ConnVerify) (packetVerifier : Option PacketVerify)
    (quantumInsecure : Bool) (now : Instant) (data : Bytes) : Packet → Prop
  | .serverHello hello => data = packetTypeServerHello :: encodeServerHello hello
  | .requestServerPubkey => data = [packetTypeRequestServerPubkey]
  | .serverPubkey publicKey => data = packetTypeServerPubkey :: publicKey
  | .clientHello hello => ∃ sig serverUnique verifier,
      sig.length = connSignatureLen quantumInsecure ∧
      data = packetTypeClientHello :: (sig ++ encodeClientHello hello) ∧
      clientHelloServerUnique = some serverUnique ∧ connVerifier = some verifier ∧
      ∃ sig' msg, sig ++ encodeClientHello hello = sig' ++ msg ∧
        verifier.Accepts V sig' (u64ToBeBytes serverUnique ++ msg)
  | .serverComplete signature =>
      data = packetTypeServerComplete :: signature ∧
      signature.length = connSignatureLen quantumInsecure
  | .payload msg => ∃ sig verifier, data = packetTypePayload :: (sig ++ msg) ∧
      packetVerifier = some verifier ∧ verifier.Accepts V sig msg now

theorem peekClientHello_eq_ok_iff (data : Bytes) (quantumInsecure : Bool) (hello : ClientHello) :
    peekClientHello data quantumInsecure = .ok hello ↔
      ∃ sig, sig.length = connSignatureLen quantumInsecure ∧
        data = packetTypeClientHello :: (sig ++ encodeClientHello hello) := by
  constructor
  · intro h
    match data, h with
    | packetType :: rest, h =>
      obtain ⟨_, htype, h⟩ := bind_eq_ok.mp h
      obtain ⟨body, hbody, h⟩ := bind_eq_ok.mp h
      rw [ensure_eq_ok] at htype
      rw [decodeClientHello_eq_ok_iff] at h
      obtain ⟨sig, hsig, hrest⟩ := (signedMessage_eq_ok_iff ..).mp hbody
      exact ⟨sig, hsig, by rw [htype, hrest, h]⟩
  · rintro ⟨sig, hsig, rfl⟩
    have hbody := (signedMessage_eq_ok_iff _ (encodeClientHello hello) _).mpr ⟨sig, hsig, rfl⟩
    rw [peekClientHello, ensure_pos _ rfl, ok_bind, hbody, ok_bind]
    exact (decodeClientHello_eq_ok_iff ..).mpr rfl

/-- A signed body is verified exactly when its front is an accepted signature. -/
theorem verifyConnSigned_isOk_iff (V : Verifier) (data : Bytes) (serverUnique : UInt64)
    (verifier : ConnVerify) :
    (∃ msg, verifyConnSigned V data serverUnique verifier = .ok msg) ↔
      ∃ sig msg, data = sig ++ msg ∧
        verifier.Accepts V sig (u64ToBeBytes serverUnique ++ msg) := by
  rcases verifier.verifyPrefixed_eq V (u64ToBeBytes serverUnique) data with
    ⟨sig, msg, hdata, haccepts, hrun⟩ | ⟨hrefused, hrun⟩
  · refine iff_of_true ⟨msg, ?_⟩ ⟨sig, msg, hdata, haccepts⟩
    rw [verifyConnSigned, hrun]
    rfl
  · refine iff_of_false ?_ ?_
    · rintro ⟨msg, h⟩
      rw [verifyConnSigned, hrun] at h
      exact bail_ne_ok _ _ h
    · rintro ⟨sig, msg, hdata, haccepts⟩
      exact hrefused sig msg hdata haccepts

section Deserialize

variable (V : Verifier) (clientHelloServerUnique : Option UInt64)
  (connVerifier : Option ConnVerify) (packetVerifier : Option PacketVerify)
  (quantumInsecure : Bool) (now later : Instant)

/-- The `ClientHello` branch of `deserialize`. -/
theorem deserialize_clientHello_eq_ok_iff (rest : Bytes) (packet : Packet) :
    (deserialize V (packetTypeClientHello :: rest) clientHelloServerUnique connVerifier
        packetVerifier quantumInsecure now later).1 = .ok packet ↔
      ∃ hello, packet = .clientHello hello ∧
        IsWire V clientHelloServerUnique connVerifier packetVerifier quantumInsecure now
          (packetTypeClientHello :: rest) (.clientHello hello) := by
  constructor
  · intro h
    obtain ⟨hello, hpeek, h⟩ := bind_eq_ok.mp h
    obtain ⟨sig, hsig, hrest⟩ := (peekClientHello_eq_ok_iff ..).mp hpeek
    -- Without a challenge value or a verifier the branch ends with an error.
    match clientHelloServerUnique, connVerifier, h with
    | some serverUnique, some verifier, h =>
      obtain ⟨msg, hverify, h⟩ := bind_eq_ok.mp h
      obtain ⟨sig', msg', hsplit, haccepts⟩ :=
        (verifyConnSigned_isOk_iff ..).mp ⟨msg, hverify⟩
      have hrest' := (List.cons.inj hrest).2
      refine ⟨hello, (Except.ok.inj h).symm, sig, serverUnique, verifier, hsig, hrest, rfl, rfl,
        sig', msg', hrest' ▸ hsplit, haccepts⟩
  · rintro ⟨hello, rfl, sig, serverUnique, verifier, hsig, hrest, rfl, rfl, sig', msg', hsplit,
      haccepts⟩
    have hpeek := (peekClientHello_eq_ok_iff _ quantumInsecure hello).mpr ⟨sig, hsig, hrest⟩
    obtain rfl := (List.cons.inj hrest).2
    obtain ⟨msg, hverify⟩ :=
      (verifyConnSigned_isOk_iff V _ serverUnique verifier).mpr ⟨sig', msg', hsplit, haccepts⟩
    refine bind_eq_ok.mpr ⟨hello, hpeek, bind_eq_ok.mpr ⟨msg, hverify, rfl⟩⟩

/-- The `Payload` branch of `deserialize`: the verifier accepts and counts, or
the packet is refused and the verifier is as it was. -/
theorem deserialize_payload_eq (verifier : PacketVerify) (rest : Bytes) :
    (∃ sig msg, rest = sig ++ msg ∧ verifier.Accepts V sig msg now ∧
      deserialize V (packetTypePayload :: rest) clientHelloServerUnique connVerifier
        (some verifier) quantumInsecure now later =
          (.ok (.payload msg), some (verifier.accepted later))) ∨
    ((∀ sig msg, rest = sig ++ msg → ¬ verifier.Accepts V sig msg now) ∧
      deserialize V (packetTypePayload :: rest) clientHelloServerUnique connVerifier
        (some verifier) quantumInsecure now later =
          (bail "packet signature verification failed", some verifier)) := by
  have hrun : deserialize V (packetTypePayload :: rest) clientHelloServerUnique connVerifier
      (some verifier) quantumInsecure now later =
      ((do return .payload (← (verifyPacketSigned V rest verifier now later).1)),
        some (verifyPacketSigned V rest verifier now later).2) := rfl
  rcases verifier.verify_eq V rest now later with
    ⟨sig, msg, hrest, haccepts, hverify⟩ | ⟨hrefused, hverify⟩
  · refine .inl ⟨sig, msg, hrest, haccepts, ?_⟩
    rw [hrun, verifyPacketSigned, hverify]
    rfl
  · refine .inr ⟨hrefused, ?_⟩
    rw [hrun, verifyPacketSigned, hverify]
    rfl

/-- The type byte a packet is sent under. -/
def typeByte : Packet → UInt8
  | .serverHello _ => packetTypeServerHello
  | .requestServerPubkey => packetTypeRequestServerPubkey
  | .serverPubkey _ => packetTypeServerPubkey
  | .clientHello _ => packetTypeClientHello
  | .serverComplete _ => packetTypeServerComplete
  | .payload _ => packetTypePayload

/-- A wire form starts with its packet's type byte. -/
theorem IsWire.typeByte_eq {V : Verifier} {serverUnique? : Option UInt64}
    {connVerifier? : Option ConnVerify} {packetVerifier? : Option PacketVerify} {mode : Bool}
    {now : Instant} {packetType : UInt8} {rest : Bytes} {packet : Packet}
    (h : IsWire V serverUnique? connVerifier? packetVerifier? mode now (packetType :: rest)
      packet) : packet.typeByte = packetType := by
  cases packet with
  | serverHello hello => exact (List.cons.inj h).1.symm
  | requestServerPubkey => exact (List.cons.inj h).1.symm
  | serverPubkey publicKey => exact (List.cons.inj h).1.symm
  | clientHello hello =>
    obtain ⟨_, _, _, -, hdata, -⟩ := h
    exact (List.cons.inj hdata).1.symm
  | serverComplete signature => exact (List.cons.inj h.1).1.symm
  | payload msg =>
    obtain ⟨_, _, hdata, -⟩ := h
    exact (List.cons.inj hdata).1.symm

/-- `deserialize` returns a packet only from one of its wire forms. -/
theorem isWire_of_deserialize {data : Bytes} {packet : Packet}
    (h : (deserialize V data clientHelloServerUnique connVerifier packetVerifier quantumInsecure
      now later).1 = .ok packet) :
    IsWire V clientHelloServerUnique connVerifier packetVerifier quantumInsecure now data
      packet := by
  match data, h with
  | packetType :: rest, h =>
    -- One branch of the source for each packet type, in its order.
    by_cases hhello : packetType = packetTypeServerHello
    · subst hhello
      obtain ⟨hello, hdecode, h⟩ := bind_eq_ok.mp h
      rw [decodeServerHello_eq_ok_iff] at hdecode
      rw [← Except.ok.inj h, hdecode]
      rfl
    by_cases hrequest : packetType = packetTypeRequestServerPubkey
    · subst hrequest
      obtain ⟨_, hempty, h⟩ := bind_eq_ok.mp h
      rw [ensure_eq_ok] at hempty
      rw [← Except.ok.inj h, hempty]
      rfl
    by_cases hpubkey : packetType = packetTypeServerPubkey
    · subst hpubkey
      rw [← Except.ok.inj h]
      rfl
    by_cases hclient : packetType = packetTypeClientHello
    · subst hclient
      obtain ⟨hello, rfl, hwire⟩ := (deserialize_clientHello_eq_ok_iff ..).mp h
      exact hwire
    by_cases hcomplete : packetType = packetTypeServerComplete
    · subst hcomplete
      obtain ⟨signature, hdecode, h⟩ := bind_eq_ok.mp h
      obtain ⟨rfl, hlen⟩ := (decodeServerComplete_eq_ok_iff ..).mp hdecode
      rw [← Except.ok.inj h]
      exact ⟨rfl, hlen⟩
    by_cases hpayload : packetType = packetTypePayload
    · subst hpayload
      match packetVerifier, h with
      | some verifier, h =>
        rcases deserialize_payload_eq V clientHelloServerUnique connVerifier quantumInsecure now
          later verifier rest with ⟨sig, msg, hrest, haccepts, hrun⟩ | ⟨-, hrun⟩
        · rw [hrun] at h
          rw [← Except.ok.inj h, hrest]
          exact ⟨sig, verifier, rfl, rfl, haccepts⟩
        · rw [hrun] at h
          exact absurd h (bail_ne_ok _ _)
    simp only [deserialize, if_neg hhello, if_neg hrequest, if_neg hpubkey, if_neg hclient,
      if_neg hcomplete, if_neg hpayload] at h
    exact absurd h (bail_ne_ok _ _)

/-- `deserialize` accepts the wire forms of every packet. -/
theorem IsWire.deserialize_eq {data : Bytes} {packet : Packet}
    (h : IsWire V clientHelloServerUnique connVerifier packetVerifier quantumInsecure now data
      packet) :
    (deserialize V data clientHelloServerUnique connVerifier packetVerifier quantumInsecure
      now later).1 = .ok packet := by
  cases packet with
  | serverHello hello =>
    obtain rfl := h
    exact bind_eq_ok.mpr ⟨hello, (decodeServerHello_eq_ok_iff ..).mpr rfl, rfl⟩
  | requestServerPubkey =>
    obtain rfl := h
    rfl
  | serverPubkey publicKey =>
    obtain rfl := h
    rfl
  | clientHello hello =>
    obtain ⟨sig, serverUnique, verifier, hsig, rfl, h⟩ := h
    exact (deserialize_clientHello_eq_ok_iff ..).mpr
      ⟨hello, rfl, sig, serverUnique, verifier, hsig, rfl, h⟩
  | serverComplete signature =>
    obtain ⟨rfl, hlen⟩ := h
    exact bind_eq_ok.mpr ⟨signature, (decodeServerComplete_eq_ok_iff ..).mpr ⟨rfl, hlen⟩, rfl⟩
  | payload msg =>
    obtain ⟨sig, verifier, rfl, rfl, haccepts⟩ := h
    rcases deserialize_payload_eq V clientHelloServerUnique connVerifier quantumInsecure now later
      verifier (sig ++ msg) with ⟨sig', msg', heq, haccepts', hrun⟩ | ⟨hrefused, -⟩
    · -- Both cuts are behind a signature of the same length.
      obtain ⟨-, rfl⟩ := List.append_inj heq (haccepts.1.trans haccepts'.1.symm)
      rw [hrun]
    · exact absurd haccepts (hrefused _ _ rfl)

/-- Without a payload the packet verifier comes back as it was. -/
theorem deserialize_snd_of_ne {data : Bytes}
    (h : ∀ msg, (deserialize V data clientHelloServerUnique connVerifier packetVerifier
      quantumInsecure now later).1 ≠ .ok (.payload msg)) :
    (deserialize V data clientHelloServerUnique connVerifier packetVerifier quantumInsecure
      now later).2 = packetVerifier := by
  match data with
  | [] => rfl
  | packetType :: rest =>
    by_cases hpayload : packetType = packetTypePayload
    · subst hpayload
      -- Only an accepted payload moves the verifier on.
      match packetVerifier, h with
      | none, _ => rfl
      | some verifier, h =>
        rcases deserialize_payload_eq V clientHelloServerUnique connVerifier quantumInsecure now
          later verifier rest with ⟨_, msg, -, -, hrun⟩ | ⟨-, hrun⟩
        · exact absurd (congrArg Prod.fst hrun) (h msg)
        · rw [hrun]
    · simp only [deserialize, if_neg hpayload]
      split_ifs <;> rfl

end Deserialize

end Packet

end Axsh

/-
# The client handshake

`ClientStream::new_with_server_pubkey_lookup_inner`, cut at the points where it
waits for a frame: the server's hello, the server's public key if the lookup does
not know it, and the server's completing signature.

The callbacks, the generated packet key and the random challenge value are what
the environment gives; they are part of the configuration of a session.
-/

import Axsh.Base64
import Axsh.Handshake.Task

set_option autoImplicit false

namespace Axsh

/-- The arguments of a client handshake, and what its environment gives it: the
results of `PacketSign::new` and `random_u64`, and the coins of its signature. -/
structure ClientConfig (C : Crypto) where
  connSign : ConnSign C
  lookupServerPubkey : ServerHello → Res (Option Bytes)
  acceptServerPubkey : ServerHello → Bytes → Res Unit
  newPacketSign : Res (PacketSign C)
  randomU64 : Res UInt64
  coins : Bytes

/-- The client's side of an established connection. -/
structure ClientStream (C : Crypto) where
  serverHello : ServerHello
  transport : PayloadStream C

/-- The local variables of a client that waits for the server's signature. -/
structure ClientPending (C : Crypto) where
  serverHelloWire : Bytes
  serverHello : ServerHello
  serverConnVerify : ConnVerify
  serverPacketVerify : PacketVerify
  packetSign : PacketSign C
  clientHelloWire : Bytes

/-- Where a client handshake waits for a frame. -/
inductive ClientAwait (C : Crypto)
  | serverHello
  | serverPubkey (serverHelloWire : Bytes) (serverHello : ServerHello)
  | serverComplete (pending : ClientPending C)

abbrev ClientTask (C : Crypto) := Task (ClientAwait C) (ClientStream C)

/-- `Result::is_ok`. -/
def Res.isOk {α : Type} : Res α → Bool
  | .ok _ => true
  | .error _ => false

namespace ClientConfig

variable {C : Crypto} (cfg : ClientConfig C)

/-- The client's hello, once its packet key and challenge value are there. -/
def clientHello (packetSign : PacketSign C) (unique : UInt64) : ClientHello where
  unique := unique
  connSignPublicKeySha256 := C.sha256 cfg.connSign.publicKeyBytes
  packetSignPublicKey := packetSign.publicKeyBytes

/-- From the server's public key to the wait for its signature: compare the key
with the digest in the hello, ask the application, and answer with a signed hello. -/
def onPublicKey (now : Instant) (serverHelloWire : Bytes) (serverHello : ServerHello)
    (publicKey : Bytes) : Act (ClientTask C) := do
  -- Confirm that this is the key mentioned in the `ServerHello`.
  .call (ensure (serverHello.connSignPublicKeySha256 = C.sha256 publicKey)
    s!"server ConnSign key hash does not match ServerHello digest (presented {formatSha256Digest
      serverHello.connSignPublicKeySha256})")
  let verdict := cfg.acceptServerPubkey serverHello publicKey
  .record (.asked serverHello publicKey verdict.isOk)
  .call verdict
  let serverConnVerify := cfg.connSign.peerVerifier publicKey
  let serverPacketVerify := PacketVerify.new serverHello.packetSignPublicKey now
  let packetSign ← .call cfg.newPacketSign
  let unique ← .call cfg.randomU64
  let hello := cfg.clientHello packetSign unique
  let clientHelloWire ← .call ((Packet.clientHello hello).serializeConnSigned cfg.connSign
    serverHello.unique cfg.coins)
  .record (.signed (u64ToBeBytes serverHello.unique ++ encodeClientHello hello))
  .record (.wrote clientHelloWire)
  return .send clientHelloWire (.readFrame (.serverComplete
    { serverHelloWire, serverHello, serverConnVerify, serverPacketVerify, packetSign,
      clientHelloWire }))

/-- Read `ServerHello`, and get the server's public key from the lookup or ask
the server for it. -/
def onServerHello (moment : Moment) (frame : Bytes) : Act (ClientTask C) := do
  let (wire, packet) ← receive moment.V frame none none cfg.connSign.quantumInsecure
  match packet with
  | .serverHello serverHello =>
    let answer ← .call (cfg.lookupServerPubkey serverHello)
    .record (.lookedUp serverHello answer)
    match answer with
    | some publicKey => cfg.onPublicKey moment.now wire serverHello publicKey
    | none =>
      let request ← .call Packet.requestServerPubkey.serializeUnsigned
      .record (.wrote request)
      return .send request (.readFrame (.serverPubkey wire serverHello))
  | other => .call (bail s!"expected ServerHello, got {other.debug}")

/-- Read `ServerPubkey`. -/
def onServerPubkey (moment : Moment) (serverHelloWire : Bytes) (serverHello : ServerHello)
    (frame : Bytes) : Act (ClientTask C) := do
  let (_, packet) ← receive moment.V frame none none cfg.connSign.quantumInsecure
  match packet with
  | .serverPubkey publicKey => cfg.onPublicKey moment.now serverHelloWire serverHello publicKey
  | other => .call (bail s!"expected ServerPubkey, got {other.debug}")

/-- Read `ServerComplete` and check its signature over the two hello messages. -/
def onServerComplete (moment : Moment) (pending : ClientPending C) (frame : Bytes) :
    Act (ClientTask C) := do
  let (_, packet) ← receive moment.V frame none none cfg.connSign.quantumInsecure
  match packet with
  | .serverComplete signature =>
    let transcript := pending.serverHelloWire ++ pending.clientHelloWire
    let verified ← .call (pending.serverConnVerify.verifyDetached moment.V signature transcript)
    .call (ensure (verified = true) "server complete transcript signature verification failed")
    return .done
      { serverHello := pending.serverHello
        transport := .new pending.packetSign pending.serverPacketVerify }
  | other => .call (bail s!"expected ServerComplete, got {other.debug}")

/-- How the client goes on with a frame. -/
def resume (moment : Moment) : ClientAwait C → Bytes → Act (ClientTask C)
  | .serverHello, frame => cfg.onServerHello moment frame
  | .serverPubkey wire hello, frame => cfg.onServerPubkey moment wire hello frame
  | .serverComplete pending, frame => cfg.onServerComplete moment pending frame

/-- A client handshake begins by reading `ServerHello`. -/
def start : ClientTask C := .readFrame .serverHello

/-! ## What each part does -/

/-- The client's answer to a hello of the server: its own hello, signed for the
server's challenge value. -/
def clientHelloWire (serverHello : ServerHello) (packetSign : PacketSign C) (unique : UInt64) :
    Bytes :=
  packetTypeClientHello :: (cfg.connSign.signature cfg.coins
    (u64ToBeBytes serverHello.unique ++ encodeClientHello (cfg.clientHello packetSign unique)) ++
      encodeClientHello (cfg.clientHello packetSign unique))

/-- The variables of a client that has answered a hello of the server. -/
def pendingAfter (now : Instant) (serverHelloWire : Bytes) (serverHello : ServerHello)
    (publicKey : Bytes) (packetSign : PacketSign C) (unique : UInt64) : ClientPending C where
  serverHelloWire := serverHelloWire
  serverHello := serverHello
  serverConnVerify := cfg.connSign.peerVerifier publicKey
  serverPacketVerify := .new serverHello.packetSignPublicKey now
  packetSign := packetSign
  clientHelloWire := cfg.clientHelloWire serverHello packetSign unique

/-- The events of a client's answer. -/
def answerEvents (serverHello : ServerHello) (publicKey : Bytes) (packetSign : PacketSign C)
    (unique : UInt64) : List Event :=
  [.asked serverHello publicKey true,
    .signed (u64ToBeBytes serverHello.unique ++
      encodeClientHello (cfg.clientHello packetSign unique)),
    .wrote (cfg.clientHelloWire serverHello packetSign unique)]

section Cases

variable {cfg}

/-- A client that is shown an acceptable key answers. -/
theorem onPublicKey_of_accepted {now : Instant} {wire : Bytes} {hello : ServerHello}
    {publicKey : Bytes} {packetSign : PacketSign C} {unique : UInt64}
    (hdigest : hello.connSignPublicKeySha256 = C.sha256 publicKey)
    (haccept : cfg.acceptServerPubkey hello publicKey = .ok ())
    (hkey : cfg.newPacketSign = .ok packetSign) (hunique : cfg.randomU64 = .ok unique) :
    cfg.onPublicKey now wire hello publicKey =
      ⟨cfg.answerEvents hello publicKey packetSign unique,
        .ok (.send (cfg.clientHelloWire hello packetSign unique) (.readFrame (.serverComplete
          (cfg.pendingAfter now wire hello publicKey packetSign unique))))⟩ := by
  rw [onPublicKey, ensure_pos _ hdigest, haccept, hkey, hunique]
  rfl

/-- What a client does with a public key: it fails, having asked about the key or
not, or the key has the digest in the hello, the application accepts it, and the
client answers. -/
theorem onPublicKey_eq (cfg : ClientConfig C) (now : Instant) (wire : Bytes) (hello : ServerHello)
    (publicKey : Bytes) :
    (cfg.onPublicKey now wire hello publicKey).FailsWith [] ∨
    (hello.connSignPublicKeySha256 = C.sha256 publicKey ∧
      (cfg.onPublicKey now wire hello publicKey).FailsWith
        [.asked hello publicKey (cfg.acceptServerPubkey hello publicKey).isOk]) ∨
    ∃ packetSign unique, hello.connSignPublicKeySha256 = C.sha256 publicKey ∧
      cfg.acceptServerPubkey hello publicKey = .ok () ∧
      cfg.newPacketSign = .ok packetSign ∧ cfg.randomU64 = .ok unique ∧
      cfg.onPublicKey now wire hello publicKey =
        ⟨cfg.answerEvents hello publicKey packetSign unique,
          .ok (.send (cfg.clientHelloWire hello packetSign unique) (.readFrame (.serverComplete
            (cfg.pendingAfter now wire hello publicKey packetSign unique))))⟩ := by
  -- The cases are the client's steps in their order: the digest is checked before the application
  -- is asked, and that before a key and a number are made.
  by_cases hdigest : hello.connSignPublicKeySha256 = C.sha256 publicKey
  · match haccept : cfg.acceptServerPubkey hello publicKey with
    | .error e =>
      refine .inr (.inl ⟨hdigest, ?_⟩)
      rw [onPublicKey, ensure_pos _ hdigest, haccept]
      exact ⟨⟨e, rfl⟩, rfl⟩
    | .ok () =>
      -- A key or a number that cannot be made ends the session after the question.
      match hkey : cfg.newPacketSign, hunique : cfg.randomU64 with
      | .error e, _ =>
        refine .inr (.inl ⟨hdigest, ?_⟩)
        rw [onPublicKey, ensure_pos _ hdigest, haccept, hkey]
        exact ⟨⟨e, rfl⟩, rfl⟩
      | .ok packetSign, .error e =>
        refine .inr (.inl ⟨hdigest, ?_⟩)
        rw [onPublicKey, ensure_pos _ hdigest, haccept, hkey, hunique]
        exact ⟨⟨e, rfl⟩, rfl⟩
      | .ok packetSign, .ok unique =>
        exact .inr (.inr ⟨packetSign, unique, hdigest, rfl, rfl, rfl,
          onPublicKey_of_accepted hdigest haccept hkey hunique⟩)
  · left
    rw [onPublicKey, ensure_neg _ hdigest]
    exact ⟨⟨_, rfl⟩, rfl⟩

/-- A client whose lookup knows the key of a hello goes on with that key. -/
theorem onServerHello_of_some {moment : Moment} {frame : Bytes} {hello : ServerHello}
    {publicKey : Bytes}
    (hdecode : Hdlc.decode frame = .ok (packetTypeServerHello :: encodeServerHello hello))
    (hlookup : cfg.lookupServerPubkey hello = .ok (some publicKey)) :
    cfg.onServerHello moment frame =
      ⟨.received (packetTypeServerHello :: encodeServerHello hello) ::
          .lookedUp hello (some publicKey) ::
          (cfg.onPublicKey moment.now (packetTypeServerHello :: encodeServerHello hello) hello
            publicKey).events,
        (cfg.onPublicKey moment.now (packetTypeServerHello :: encodeServerHello hello) hello
          publicKey).result⟩ := by
  have hwire : Packet.IsWire moment.V none none none cfg.connSign.quantumInsecure 0
      (packetTypeServerHello :: encodeServerHello hello) (.serverHello hello) := rfl
  rw [onServerHello, receive_of_isWire hdecode hwire]
  change Act.andThen _ _ = _
  simp only [Act.andThen, hlookup]
  rfl

/-- A client whose lookup does not know the key of a hello asks for it. -/
theorem onServerHello_of_none {moment : Moment} {frame : Bytes} {hello : ServerHello}
    (hdecode : Hdlc.decode frame = .ok (packetTypeServerHello :: encodeServerHello hello))
    (hlookup : cfg.lookupServerPubkey hello = .ok none) :
    cfg.onServerHello moment frame =
      ⟨[.received (packetTypeServerHello :: encodeServerHello hello), .lookedUp hello none,
          .wrote [packetTypeRequestServerPubkey]],
        .ok (.send [packetTypeRequestServerPubkey] (.readFrame
          (.serverPubkey (packetTypeServerHello :: encodeServerHello hello) hello)))⟩ := by
  have hwire : Packet.IsWire moment.V none none none cfg.connSign.quantumInsecure 0
      (packetTypeServerHello :: encodeServerHello hello) (.serverHello hello) := rfl
  rw [onServerHello, receive_of_isWire hdecode hwire]
  change Act.andThen _ _ = _
  simp only [Act.andThen, hlookup]
  rfl

/-- What a client does with its first frame: it refuses it, or it is a server
hello and the client goes on with the key that the lookup gave, or asks for the key
because the lookup gave none. -/
theorem onServerHello_eq (cfg : ClientConfig C) (moment : Moment) (frame : Bytes) :
    (cfg.onServerHello moment frame).Refuses ∨
    ∃ hello wire, wire = packetTypeServerHello :: encodeServerHello hello ∧
      ((∃ publicKey, cfg.lookupServerPubkey hello = .ok (some publicKey) ∧
        cfg.onServerHello moment frame =
          ⟨.received wire :: .lookedUp hello (some publicKey) ::
              (cfg.onPublicKey moment.now wire hello publicKey).events,
            (cfg.onPublicKey moment.now wire hello publicKey).result⟩) ∨
      cfg.lookupServerPubkey hello = .ok none ∧
        cfg.onServerHello moment frame =
          ⟨[.received wire, .lookedUp hello none, .wrote [packetTypeRequestServerPubkey]],
            .ok (.send [packetTypeRequestServerPubkey]
              (.readFrame (.serverPubkey wire hello)))⟩) := by
  rcases receive_bind_eq moment.V frame none none cfg.connSign.quantumInsecure _ with
    hrefuses | ⟨wire, packet, hdecode, hwire, hrun⟩
  · exact .inl hrefuses
  · cases packet with
    | serverHello hello =>
      -- The packet decides the wire bytes: a server hello is read back from its own encoding.
      obtain rfl := hwire
      match hlookup : cfg.lookupServerPubkey hello with
      | .error e =>
        refine .inl (Act.FailsWith.refuses hrun ?_)
        simp only [hlookup]
        exact Act.failsWith_call e
      | .ok (some publicKey) =>
        exact .inr ⟨hello, _, rfl, .inl ⟨publicKey, hlookup, onServerHello_of_some hdecode hlookup⟩⟩
      | .ok none => exact .inr ⟨hello, _, rfl,
        .inr ⟨hlookup, onServerHello_of_none hdecode hlookup⟩⟩
    -- Any other packet is answered with an error.
    | requestServerPubkey | serverPubkey _ | clientHello _ | serverComplete _ | payload _ =>
      exact .inl (Act.FailsWith.refuses hrun (Act.failsWith_call _))

/-- A client that receives the key it has asked for goes on with that key. -/
theorem onServerPubkey_of_decode {moment : Moment} {wire frame publicKey : Bytes}
    {hello : ServerHello}
    (hdecode : Hdlc.decode frame = .ok (packetTypeServerPubkey :: publicKey)) :
    cfg.onServerPubkey moment wire hello frame =
      ⟨.received (packetTypeServerPubkey :: publicKey) ::
          (cfg.onPublicKey moment.now wire hello publicKey).events,
        (cfg.onPublicKey moment.now wire hello publicKey).result⟩ := by
  have hwire : Packet.IsWire moment.V none none none cfg.connSign.quantumInsecure 0
      (packetTypeServerPubkey :: publicKey) (.serverPubkey publicKey) := rfl
  rw [onServerPubkey, receive_of_isWire hdecode hwire]
  rfl

/-- What a client does with the frame after its request: it refuses it, or it is
the public key and the client goes on with that. -/
theorem onServerPubkey_eq (cfg : ClientConfig C) (moment : Moment) (wire : Bytes)
    (hello : ServerHello) (frame : Bytes) :
    (cfg.onServerPubkey moment wire hello frame).Refuses ∨
    ∃ publicKey, cfg.onServerPubkey moment wire hello frame =
      ⟨.received (packetTypeServerPubkey :: publicKey) ::
          (cfg.onPublicKey moment.now wire hello publicKey).events,
        (cfg.onPublicKey moment.now wire hello publicKey).result⟩ := by
  rcases receive_bind_eq moment.V frame none none cfg.connSign.quantumInsecure _ with
    hrefuses | ⟨keyWire, packet, hdecode, hwire, hrun⟩
  · exact .inl hrefuses
  · cases packet with
    | serverPubkey publicKey =>
      obtain rfl := hwire
      exact .inr ⟨publicKey, onServerPubkey_of_decode hdecode⟩
    | requestServerPubkey | serverHello _ | clientHello _ | serverComplete _ | payload _ =>
      exact .inl (Act.FailsWith.refuses hrun (Act.failsWith_call _))

/-- The connection that a client has established. -/
def established (pending : ClientPending C) : ClientStream C where
  serverHello := pending.serverHello
  transport := .new pending.packetSign pending.serverPacketVerify

/-- A client that receives the server's signature over the two hello messages has
established the connection. -/
theorem onServerComplete_of_verified {moment : Moment} {pending : ClientPending C}
    {frame signature : Bytes}
    (hdecode : Hdlc.decode frame = .ok (packetTypeServerComplete :: signature))
    (hlen : signature.length = connSignatureLen cfg.connSign.quantumInsecure)
    (hverified : pending.serverConnVerify.verifyDetached moment.V signature
      (pending.serverHelloWire ++ pending.clientHelloWire) = .ok true) :
    cfg.onServerComplete moment pending frame =
      ⟨[.received (packetTypeServerComplete :: signature)], .ok (.done (established pending))⟩ := by
  have hwire : Packet.IsWire moment.V none none none cfg.connSign.quantumInsecure 0
      (packetTypeServerComplete :: signature) (.serverComplete signature) := ⟨rfl, hlen⟩
  rw [onServerComplete, receive_of_isWire hdecode hwire]
  change Act.andThen _ _ = _
  simp only [Act.andThen, hverified]
  rfl

/-- What a client does with its last frame: it refuses it, or it is a signature of
the mode's length that is verified over the two hello messages, and the client has
established the connection. -/
theorem onServerComplete_eq (cfg : ClientConfig C) (moment : Moment) (pending : ClientPending C)
    (frame : Bytes) :
    (cfg.onServerComplete moment pending frame).Refuses ∨
    ∃ signature, signature.length = connSignatureLen cfg.connSign.quantumInsecure ∧
      pending.serverConnVerify.verifyDetached moment.V signature
        (pending.serverHelloWire ++ pending.clientHelloWire) = .ok true ∧
      cfg.onServerComplete moment pending frame =
        ⟨[.received (packetTypeServerComplete :: signature)],
          .ok (.done (established pending))⟩ := by
  rcases receive_bind_eq moment.V frame none none cfg.connSign.quantumInsecure _ with
    hrefuses | ⟨wire, packet, hdecode, hwire, hrun⟩
  · exact .inl hrefuses
  · cases packet with
    | serverComplete signature =>
      -- The parser has checked the length for the mode; the signature itself is checked here.
      obtain ⟨rfl, hlen⟩ := hwire
      match hverified : pending.serverConnVerify.verifyDetached moment.V signature
          (pending.serverHelloWire ++ pending.clientHelloWire) with
      | .ok true =>
        exact .inr ⟨signature, hlen, hverified, onServerComplete_of_verified hdecode hlen hverified⟩
      | .error e =>
        refine .inl (Act.FailsWith.refuses hrun ?_)
        simp only [hverified]
        exact Act.failsWith_call e
      | .ok false =>
        refine .inl (Act.FailsWith.refuses hrun ?_)
        simp only [hverified]
        exact Act.failsWith_call _
    | requestServerPubkey | serverHello _ | clientHello _ | serverPubkey _ | payload _ =>
      exact .inl (Act.FailsWith.refuses hrun (Act.failsWith_call _))

end Cases

end ClientConfig

end Axsh

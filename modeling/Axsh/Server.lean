/-
# The server handshake

`ServerStream::new_inner`, cut at the one point where it waits for a frame: the
top of the loop in which it answers requests for its key until a client hello
comes.

The generated packet key and the random challenge value are what the environment
gives; they are part of the configuration of a session. The map of authorized
keys is the function that looks a digest up in it.
-/

import Axsh.Handshake.Task

set_option autoImplicit false

namespace Axsh

/-- The arguments of a server handshake, and what its environment gives it: the
results of `PacketSign::new` and `random_u64`, and the coins of its signature. -/
structure ServerConfig (C : Crypto) where
  connSign : ConnSign C
  authorizedKeys : Fixed sha256DigestLen → Option Bytes
  newPacketSign : Res (PacketSign C)
  randomU64 : Res UInt64
  coins : Bytes

/-- The server's side of an established connection. -/
structure ServerStream (C : Crypto) where
  clientHello : ClientHello
  transport : PayloadStream C

/-- The local variables of a server that waits for a frame. -/
structure ServerPending (C : Crypto) where
  packetSign : PacketSign C
  unique : UInt64
  serverHelloWire : Bytes

abbrev ServerTask (C : Crypto) := Task (ServerPending C) (ServerStream C)

/-- `unreachable!`, for a packet of another type than was peeked. -/
def packetTypeDisagreed : Failure :=
  .panic "internal error: entered unreachable code: packet type and parsed packet disagreed"

namespace ServerConfig

variable {C : Crypto} (cfg : ServerConfig C)

/-- The server's hello, once its packet key and challenge value are there. -/
def serverHello (packetSign : PacketSign C) (unique : UInt64) : ServerHello where
  unique := unique
  connSignPublicKeySha256 := C.sha256 cfg.connSign.publicKeyBytes
  packetSignPublicKey := packetSign.publicKeyBytes

/-- A server handshake begins by sending `ServerHello`. -/
def start : Act (ServerTask C) := do
  let packetSign ← .call cfg.newPacketSign
  let unique ← .call cfg.randomU64
  let serverHelloWire ←
    .call (Packet.serverHello (cfg.serverHello packetSign unique)).serializeUnsigned
  .record (.wrote serverHelloWire)
  return .send serverHelloWire (.readFrame { packetSign, unique, serverHelloWire })

/-- From the client's hello to the established connection: sign the two hello
messages and send the signature. -/
def complete (now : Instant) (pending : ServerPending C) (clientHelloWire : Bytes)
    (clientHello : ClientHello) : Act (ServerTask C) := do
  let clientPacketVerify := PacketVerify.new clientHello.packetSignPublicKey now
  let transcript := pending.serverHelloWire ++ clientHelloWire
  .record (.signed transcript)
  let wire ← .call (Packet.serverComplete
    (cfg.connSign.signDetached cfg.coins transcript)).serializeUnsigned
  .record (.wrote wire)
  return .send wire (.done
    { clientHello, transport := .new pending.packetSign clientPacketVerify })

/-- The loop's branch for a request: answer with the public key, and wait again. -/
def onRequest (moment : Moment) (pending : ServerPending C) (wire : Bytes) :
    Act (ServerTask C) := do
  let packet ← .call (Packet.deserialize moment.V wire none none none
    cfg.connSign.quantumInsecure 0 0).1
  match packet with
  | .requestServerPubkey =>
    let reply ← .call (Packet.serverPubkey cfg.connSign.publicKeyBytes).serializeUnsigned
    .record (.wrote reply)
    return .send reply (.readFrame pending)
  -- `unreachable!`: the type byte was peeked before.
  | _ => .call (.error packetTypeDisagreed)

/-- The loop's branch for a client hello: look its digest up, parse it again with
the key found, and leave the loop. -/
def onClientHello (moment : Moment) (pending : ServerPending C) (wire : Bytes) :
    Act (ServerTask C) := do
  let peeked ← .call (Packet.peekClientHello wire cfg.connSign.quantumInsecure)
  match cfg.authorizedKeys peeked.connSignPublicKeySha256 with
  | none => .call (bail "client ConnSign key is not authorized")
  | some publicKey =>
    let packet ← .call (Packet.deserialize moment.V wire (some pending.unique)
      (some (cfg.connSign.peerVerifier publicKey)) none cfg.connSign.quantumInsecure 0 0).1
    match packet with
    -- The hello that is used is the parsed one; the peeked one only chose the key.
    | .clientHello clientHello => cfg.complete moment.now pending wire clientHello
    | _ => .call (.error packetTypeDisagreed)

/-- One round of the receive loop. -/
def resume (moment : Moment) (pending : ServerPending C) (frame : Bytes) :
    Act (ServerTask C) := do
  let wire ← .call (Hdlc.decode frame)
  .record (.received wire)
  let packetType ← .call (Packet.peekType wire)
  if packetType = packetTypeRequestServerPubkey then cfg.onRequest moment pending wire
  else if packetType = packetTypeClientHello then cfg.onClientHello moment pending wire
  else
    .call (bail s!"expected RequestServerPubkey or ClientHello, got packet type {packetType}")

/-! ## What each part does -/

/-- The variables of a server that has sent its hello. -/
def pendingAfter (packetSign : PacketSign C) (unique : UInt64) : ServerPending C where
  packetSign := packetSign
  unique := unique
  serverHelloWire := helloWire (cfg.serverHello packetSign unique)

/-- What a server does first: it fails, or sends its hello. -/
theorem start_eq :
    cfg.start.FailsWith [] ∨
    ∃ packetSign unique, cfg.newPacketSign = .ok packetSign ∧ cfg.randomU64 = .ok unique ∧
      cfg.start = ⟨[.wrote (helloWire (cfg.serverHello packetSign unique))],
        .ok (.send (helloWire (cfg.serverHello packetSign unique))
          (.readFrame (cfg.pendingAfter packetSign unique)))⟩ := by
  -- Key generation and the random number may fail; the hello itself always serializes.
  match hkey : cfg.newPacketSign, hunique : cfg.randomU64 with
  | .error e, _ =>
    left
    rw [start, hkey]
    exact Act.failsWith_call e
  | .ok packetSign, .error e =>
    left
    rw [start, hkey, hunique]
    exact Act.failsWith_call e
  | .ok packetSign, .ok unique =>
    refine .inr ⟨packetSign, unique, rfl, rfl, ?_⟩
    rw [start, hkey, hunique]
    rfl

/-- A client hello that a server admits: its digest is that of an authorized key,
and the signature is by that key, over the server's challenge value and the hello. -/
structure Admits (V : Verifier) (unique : UInt64) (hello : ClientHello)
    (publicKey signature : Bytes) : Prop where
  authorized : cfg.authorizedKeys hello.connSignPublicKeySha256 = some publicKey
  accepts : (cfg.connSign.peerVerifier publicKey).Accepts V signature
    (u64ToBeBytes unique ++ encodeClientHello hello)

/-- The server's connection once it has accepted a client hello. -/
def established (now : Instant) (pending : ServerPending C) (hello : ClientHello) :
    ServerStream C where
  clientHello := hello
  transport := .new pending.packetSign (.new hello.packetSignPublicKey now)

/-- The messages over which the server signs, and its message with that signature. -/
def completeWire (pending : ServerPending C) (clientHelloWire : Bytes) : Bytes :=
  packetTypeServerComplete ::
    cfg.connSign.signDetached cfg.coins (pending.serverHelloWire ++ clientHelloWire)

theorem complete_eq (now : Instant) (pending : ServerPending C) (clientHelloWire : Bytes)
    (hello : ClientHello) :
    cfg.complete now pending clientHelloWire hello =
      ⟨[.signed (pending.serverHelloWire ++ clientHelloWire),
          .wrote (cfg.completeWire pending clientHelloWire)],
        .ok (.send (cfg.completeWire pending clientHelloWire)
          (.done (established now pending hello)))⟩ := rfl

section Cases

variable {cfg} {moment : Moment} {pending : ServerPending C} {frame : Bytes}

/-- A client hello that is admitted parses as itself. -/
theorem Admits.isWire {hello : ClientHello} {publicKey signature : Bytes}
    (h : cfg.Admits moment.V pending.unique hello publicKey signature) :
    Packet.IsWire moment.V (some pending.unique) (some (cfg.connSign.peerVerifier publicKey)) none
      cfg.connSign.quantumInsecure 0 (signedHelloWire signature hello) (.clientHello hello) :=
  ⟨signature, pending.unique, _, h.accepts.length, rfl, rfl, rfl, signature, _, rfl, h.accepts⟩

/-- The branch for a client hello takes the ones that are admitted. -/
theorem onClientHello_of_admits {hello : ClientHello} {publicKey signature : Bytes}
    (h : cfg.Admits moment.V pending.unique hello publicKey signature) :
    cfg.onClientHello moment pending (signedHelloWire signature hello) =
      cfg.complete moment.now pending (signedHelloWire signature hello) hello := by
  have hpeek : Packet.peekClientHello (signedHelloWire signature hello)
      cfg.connSign.quantumInsecure = .ok hello :=
    (Packet.peekClientHello_eq_ok_iff _ _ _).mpr ⟨signature, h.accepts.length, rfl⟩
  rw [onClientHello, hpeek, Act.call_ok_bind, h.authorized]
  simp only [h.isWire.deserialize_eq, Act.call_ok_bind]

/-- The branch for a client hello fails, or the hello is one that is admitted. -/
theorem onClientHello_eq (cfg : ServerConfig C) (moment : Moment) (pending : ServerPending C)
    (wire : Bytes) :
    (cfg.onClientHello moment pending wire).FailsWith [] ∨
    ∃ hello publicKey signature, wire = signedHelloWire signature hello ∧
      cfg.Admits moment.V pending.unique hello publicKey signature := by
  match hpeek : Packet.peekClientHello wire cfg.connSign.quantumInsecure with
  | .error e =>
    left
    rw [onClientHello, hpeek]
    exact Act.failsWith_call e
  | .ok peeked =>
    match hauthorized : cfg.authorizedKeys peeked.connSignPublicKeySha256 with
    | none =>
      left
      rw [onClientHello, hpeek, Act.call_ok_bind, hauthorized]
      exact Act.failsWith_call _
    | some publicKey =>
      match hpacket : (Packet.deserialize moment.V wire (some pending.unique)
          (some (cfg.connSign.peerVerifier publicKey)) none cfg.connSign.quantumInsecure 0 0).1 with
      | .error e =>
        left
        rw [onClientHello, hpeek, Act.call_ok_bind, hauthorized]
        simp only [hpacket]
        exact Act.failsWith_call e
      | .ok packet =>
        -- Both parses read the same bytes, so the second gives the peeked hello again.
        obtain ⟨sig, hsig, rfl⟩ := (Packet.peekClientHello_eq_ok_iff _ _ _).mp hpeek
        have hwire := Packet.isWire_of_deserialize _ _ _ _ _ _ 0 hpacket
        cases packet with
        | clientHello hello =>
          obtain ⟨sig', unique, verifier, hsig', hdata, hunique, hverifier, sig'', msg, hsplit,
            haccepts⟩ := hwire
          obtain rfl := Option.some.inj hunique
          obtain rfl := Option.some.inj hverifier
          obtain ⟨rfl, hhello⟩ := List.append_inj (List.cons.inj hdata).2 (hsig.trans hsig'.symm)
          obtain rfl := encodeClientHello_injective hhello
          obtain ⟨rfl, rfl⟩ := List.append_inj hsplit (hsig.trans haccepts.length.symm)
          exact .inr ⟨peeked, publicKey, sig, rfl, hauthorized, haccepts⟩
        -- Every other packet has another type byte.
        | serverHello hello => exact absurd (List.cons.inj hwire).1 (by decide)
        | requestServerPubkey => exact absurd (List.cons.inj hwire).1 (by decide)
        | serverPubkey key => exact absurd (List.cons.inj hwire).1 (by decide)
        | serverComplete signature => exact absurd (List.cons.inj hwire.1).1 (by decide)
        | payload data =>
          obtain ⟨sig', verifier, hdata, -⟩ := hwire
          exact absurd (List.cons.inj hdata).1 (by decide)

/-- A request with trailing bytes is refused. -/
theorem onRequest_of_cons (byte : UInt8) (rest : Bytes) :
    (cfg.onRequest moment pending (packetTypeRequestServerPubkey :: byte :: rest)).FailsWith
      [] := by
  have hpacket : (Packet.deserialize moment.V (packetTypeRequestServerPubkey :: byte :: rest) none
      none none cfg.connSign.quantumInsecure 0 0).1 =
        bail "request server pubkey has trailing bytes" := rfl
  rw [onRequest, hpacket]
  exact Act.failsWith_call _

/-- A server answers a request for its public key, and waits again. -/
theorem resume_of_request (hdecode : Hdlc.decode frame = .ok [packetTypeRequestServerPubkey]) :
    cfg.resume moment pending frame =
      ⟨[.received [packetTypeRequestServerPubkey],
          .wrote (packetTypeServerPubkey :: cfg.connSign.publicKeyBytes)],
        .ok (.send (packetTypeServerPubkey :: cfg.connSign.publicKeyBytes)
          (.readFrame pending))⟩ := by
  rw [resume, hdecode]
  rfl

/-- A server that admits a client hello signs the two hellos. -/
theorem resume_of_admits {hello : ClientHello} {publicKey signature : Bytes}
    (hdecode : Hdlc.decode frame = .ok (signedHelloWire signature hello))
    (h : cfg.Admits moment.V pending.unique hello publicKey signature) :
    cfg.resume moment pending frame =
      ⟨[.received (signedHelloWire signature hello),
          .signed (pending.serverHelloWire ++ signedHelloWire signature hello),
          .wrote (cfg.completeWire pending (signedHelloWire signature hello))],
        .ok (.send (cfg.completeWire pending (signedHelloWire signature hello))
          (.done (established moment.now pending hello)))⟩ := by
  have hrun : cfg.resume moment pending frame =
      Act.record (.received (signedHelloWire signature hello)) >>= fun _ =>
        cfg.onClientHello moment pending (signedHelloWire signature hello) := by
    rw [resume, hdecode]
    rfl
  rw [hrun, onClientHello_of_admits h, complete_eq]
  rfl

/-- What a server does with a frame: it refuses it, answers a request, or admits a
client hello. -/
theorem resume_eq (cfg : ServerConfig C) (moment : Moment) (pending : ServerPending C)
    (frame : Bytes) :
    (cfg.resume moment pending frame).Refuses ∨
    Hdlc.decode frame = .ok [packetTypeRequestServerPubkey] ∨
    ∃ hello publicKey signature, Hdlc.decode frame = .ok (signedHelloWire signature hello) ∧
      cfg.Admits moment.V pending.unique hello publicKey signature := by
  match hdecode : Hdlc.decode frame with
  | .error e =>
    refine .inl (.inl ?_)
    rw [resume, hdecode]
    exact Act.failsWith_call e
  -- An empty message has no type byte to peek.
  | .ok [] =>
    refine .inl (.inr ⟨[], ?_⟩)
    rw [resume, hdecode, Act.call_ok_bind]
    exact Act.FailsWith.record (Act.failsWith_call _)
  | .ok (packetType :: rest) =>
    by_cases hrequest : packetType = packetTypeRequestServerPubkey
    · subst hrequest
      cases rest with
      | nil => exact .inr (.inl rfl)
      -- The type byte is a request's, but the parser refuses trailing bytes.
      | cons byte rest =>
        refine .inl (.inr ⟨packetTypeRequestServerPubkey :: byte :: rest, ?_⟩)
        rw [resume, hdecode, Act.call_ok_bind]
        have hfails : (cfg.onRequest moment pending
            (packetTypeRequestServerPubkey :: byte :: rest)).FailsWith [] :=
          onRequest_of_cons byte rest
        exact Act.FailsWith.record hfails
    · by_cases hhello : packetType = packetTypeClientHello
      · subst hhello
        rcases cfg.onClientHello_eq moment pending (packetTypeClientHello :: rest) with
          hfails | ⟨hello, publicKey, signature, hwire, hadmits⟩
        · refine .inl (.inr ⟨packetTypeClientHello :: rest, ?_⟩)
          rw [resume, hdecode, Act.call_ok_bind]
          exact Act.FailsWith.record hfails
        · exact .inr (.inr ⟨hello, publicKey, signature, congrArg Except.ok hwire, hadmits⟩)
      · refine .inl (.inr ⟨packetType :: rest, ?_⟩)
        rw [resume, hdecode, Act.call_ok_bind]
        apply Act.FailsWith.record
        simp only [Packet.peekType, Act.call_ok_bind, if_neg hrequest, if_neg hhello]
        exact Act.failsWith_call _

end Cases

end ServerConfig

end Axsh

/-
# The packet sequence

A packet verifier meets a list of wire inputs of any kind, one after the other. It
follows a cursor on the payloads that its peer has signed: an input whose payload is
accepted advances the position past exactly that payload, and every other input leaves
the verifier as it was (`present_cases`). The genuine packet at the position is accepted
whatever was refused before it.
-/

import Axsh.Channel
import Axsh.Transport.Receiving

set_option autoImplicit false

namespace Axsh.PacketVerify

open PayloadStream (Matches payloadWire)

variable {C : Crypto}

/-- A wire input, with the other arguments of the call and the clock readings it makes. -/
structure WireInput where
  data : Bytes
  serverUnique : Option UInt64
  connVerifier : Option ConnVerify
  quantumInsecure : Bool
  now : Instant
  later : Instant

/-- The payload that a call returned. -/
def payloadOf : Res Packet → Option Bytes
  | .ok (.payload msg) => some msg
  | _ => none

/-- Deserialize an input with this packet verifier: the result, and the verifier after
the call. -/
def present (V : Verifier) (self : PacketVerify) (input : WireInput) : Res Packet × PacketVerify :=
  let out := Packet.deserialize V input.data input.serverUnique input.connVerifier (some self)
    input.quantumInsecure input.now input.later
  (out.1, out.2.getD self)

/-- Deserialize inputs in turn: the payloads accepted, and the verifier at the end. -/
def feed (V : Verifier) (self : PacketVerify) : List WireInput → List Bytes × PacketVerify
  | [] => ([], self)
  | input :: inputs =>
    let out := self.present V input
    let rest := out.2.feed V inputs
    ((payloadOf out.1).toList ++ rest.1, rest.2)

/-! ## One input -/

theorem present_of_accepts {V : Verifier} {self : PacketVerify} {input : WireInput}
    {sig msg : Bytes} (hdata : input.data = packetTypePayload :: (sig ++ msg))
    (haccepts : self.Accepts V sig msg input.now) :
    self.present V input = (.ok (.payload msg), self.accepted input.later) := by
  rcases Packet.deserialize_payload_eq V input.serverUnique input.connVerifier input.quantumInsecure
    input.now input.later self (sig ++ msg) with ⟨sig', msg', hcut, haccepts', hrun⟩ | ⟨hrefused, -⟩
  · obtain ⟨-, rfl⟩ := List.append_inj hcut (haccepts.1.trans haccepts'.1.symm)
    rw [present, hdata, hrun]
    rfl
  · exact absurd haccepts (hrefused _ _ rfl)

/-- An input is a payload that the verifier accepts and counts, or it leaves the verifier
as it is. -/
theorem present_cases (V : Verifier) (self : PacketVerify) (input : WireInput) :
    (∃ sig msg, self.Accepts V sig msg input.now ∧
      self.present V input = (.ok (.payload msg), self.accepted input.later)) ∨
    payloadOf (self.present V input).1 = none ∧ (self.present V input).2 = self := by
  match hresult : (self.present V input).1 with
  | .ok (.payload msg) =>
    obtain ⟨sig, verifier, hdata, hverifier, haccepts⟩ :=
      Packet.isWire_of_deserialize V _ _ _ _ _ _ hresult
    obtain rfl := Option.some.inj hverifier
    exact .inl ⟨sig, msg, haccepts, present_of_accepts hdata haccepts⟩
  | .error e | .ok (.serverHello _) | .ok .requestServerPubkey | .ok (.serverPubkey _)
  | .ok (.clientHello _) | .ok (.serverComplete _) =>
    refine .inr ⟨rfl, ?_⟩
    -- Anything but a payload leaves the verifier as it was.
    have hother : ∀ msg, (self.present V input).1 ≠ .ok (.payload msg) := by
      intro msg hpayload
      rw [hresult] at hpayload
      cases hpayload
    have hsame := Packet.deserialize_snd_of_ne V input.serverUnique input.connVerifier (some self)
      input.quantumInsecure input.now input.later hother
    rw [present, hsame]
    rfl

/-! ## The cursor a verifier follows -/

/-- The verifier holds the peer's key and has accepted what is before the position. -/
structure Follows (verifier : PacketVerify) (keyPair : C.Ed25519KeyPair) (c : Cursor Bytes) :
    Prop where
  publicKey : verifier.publicKey = C.ed25519PublicKey keyPair
  verifyCounter : verifier.verifyCounter = UInt64.ofNat c.pos

/-- What the peer has signed: each payload behind its number. -/
def signedInputs (payloads : List Bytes) : List Bytes := payloads.mapIdx Channel.signatureInput

/-- A payload that is accepted is the one at the position. -/
theorem Follows.accepted {self : PacketVerify} {keyPair : C.Ed25519KeyPair} {c : Cursor Bytes}
    {V : Verifier} {sig msg : Bytes} {now : Instant} (h : self.Follows keyPair c)
    (hcount : c.log.length < 2 ^ 64)
    (unforged : V.Ed25519Unforgeable (C.ed25519PublicKey keyPair).1 (· ∈ signedInputs c.log))
    (haccepts : self.Accepts V sig msg now) (later : Instant) :
    ∃ hpos : c.pos < c.log.length, msg = c.log[c.pos] ∧
      (self.accepted later).Follows keyPair (c.advance hpos) := by
  obtain ⟨-, -, hverified⟩ := haccepts
  rw [h.publicKey, h.verifyCounter] at hverified
  obtain ⟨hpos, hmsg⟩ := Channel.eq_of_signatureInput_mem hcount (unforged _ _ hverified)
  refine ⟨hpos, hmsg, h.publicKey, ?_⟩
  rw [accepted_verifyCounter, h.verifyCounter]
  exact (UInt64.ofNat_add ..).symm

/-- Every input keeps the verifier on the cursor. -/
theorem Follows.present {self : PacketVerify} {keyPair : C.Ed25519KeyPair} {c : Cursor Bytes}
    {V : Verifier} (h : self.Follows keyPair c) (hcount : c.log.length < 2 ^ 64)
    (unforged : V.Ed25519Unforgeable (C.ed25519PublicKey keyPair).1 (· ∈ signedInputs c.log))
    (input : WireInput) :
    ∃ c' : Cursor Bytes, c'.log = c.log ∧ (self.present V input).2.Follows keyPair c' ∧
      c'.taken = c.taken ++ (payloadOf (self.present V input).1).toList := by
  rcases present_cases V self input with ⟨sig, msg, haccepts, hrun⟩ | ⟨hnone, hsame⟩
  · obtain ⟨hpos, rfl, hfollows⟩ := h.accepted hcount unforged haccepts input.later
    rw [hrun]
    exact ⟨c.advance hpos, rfl, hfollows, c.taken_advance hpos⟩
  · refine ⟨c, rfl, ?_, ?_⟩
    · rw [hsame]
      exact h
    · rw [hnone]
      exact (List.append_nil _).symm

/-- Along any inputs the verifier follows the cursor, and has accepted what it passed. -/
theorem Follows.feed {self : PacketVerify} {keyPair : C.Ed25519KeyPair} {c : Cursor Bytes}
    {V : Verifier} (h : self.Follows keyPair c) (hcount : c.log.length < 2 ^ 64)
    (unforged : V.Ed25519Unforgeable (C.ed25519PublicKey keyPair).1 (· ∈ signedInputs c.log))
    (inputs : List WireInput) :
    ∃ c' : Cursor Bytes, c'.log = c.log ∧ (self.feed V inputs).2.Follows keyPair c' ∧
      c'.taken = c.taken ++ (self.feed V inputs).1 := by
  induction inputs generalizing self c with
  | nil => exact ⟨c, rfl, h, (List.append_nil _).symm⟩
  | cons input inputs ih =>
    -- The log does not change, so what is signed and unforged is the same for the rest.
    obtain ⟨c₁, hlog, hfollows, htaken⟩ := h.present hcount unforged input
    rw [← hlog] at hcount unforged
    obtain ⟨c₂, hlog₂, hfollows₂, htaken₂⟩ := ih hfollows hcount unforged
    refine ⟨c₂, hlog₂.trans hlog, hfollows₂, ?_⟩
    rw [htaken₂, htaken, List.append_assoc]
    rfl

/-! ## Exactly the genuine sequence -/

/-- The wire message of the packet number `k` of a new signer that signs payloads in turn. -/
def genuineWire (keyPair : C.Ed25519KeyPair) (payloads : List Bytes) (k : ℕ)
    (h : k < payloads.length) : Bytes :=
  payloadWire ((PacketSign.new keyPair).signAll (payloads.take k)) payloads[k]

/-- The library accepts the signer's own signatures over what it has signed. -/
def Vouched (V : Verifier) (keyPair : C.Ed25519KeyPair) (payloads : List Bytes) : Prop :=
  ∀ input ∈ signedInputs payloads,
    V.ed25519 (C.ed25519PublicKey keyPair).1 input (C.ed25519Sign keyPair input).1 = true

/-- At the position, the genuine packet is accepted. -/
theorem Follows.present_genuine {self : PacketVerify} {keyPair : C.Ed25519KeyPair}
    {c : Cursor Bytes} {V : Verifier} (h : self.Follows keyPair c)
    (hvouched : Vouched V keyPair c.log) (hpos : c.pos < c.log.length) {input : WireInput}
    (hdata : input.data = genuineWire keyPair c.log c.pos hpos)
    (hidle : input.now - self.lastSuccess ≤ maxConnectionIdle) :
    (self.present V input).1 = .ok (.payload c.log[c.pos]) := by
  have hlength : (c.log.take c.pos).length = c.pos := List.length_take_of_le c.pos_le
  rw [genuineWire, PacketSign.signAll_new, hlength, PayloadStream.payloadWire_eq] at hdata
  have hsigned : packetSignatureInput (UInt64.ofNat c.pos) c.log[c.pos] ∈ signedInputs c.log :=
    List.mem_mapIdx.mpr ⟨c.pos, hpos, rfl⟩
  rw [present_of_accepts hdata]
  refine ⟨(C.ed25519Sign ..).2, hidle, ?_⟩
  rw [h.publicKey, h.verifyCounter]
  exact hvouched _ hsigned

/-- With a peer that has signed `payloads` and an unforged key, whatever inputs a new verifier
has met: it has accepted a front of the payloads; an input that is not an accepted payload
leaves it as it is; and the genuine packet at its position is accepted. -/
theorem accepts_genuine_sequence (V : Verifier) (keyPair : C.Ed25519KeyPair)
    (payloads : List Bytes) (hcount : payloads.length < 2 ^ 64)
    (unforged : V.Ed25519Unforgeable (C.ed25519PublicKey keyPair).1 (· ∈ signedInputs payloads))
    (hvouched : Vouched V keyPair payloads) (start : Instant) (inputs : List WireInput) :
    let out := (PacketVerify.new (C.ed25519PublicKey keyPair) start).feed V inputs
    out.1 <+: payloads ∧
      (∀ input, payloadOf (out.2.present V input).1 = none → (out.2.present V input).2 = out.2) ∧
      ∀ k (hk : k < payloads.length) input, out.1.length = k →
        input.data = genuineWire keyPair payloads k hk →
        input.now - out.2.lastSuccess ≤ maxConnectionIdle →
        (out.2.present V input).1 = .ok (.payload payloads[k]) := by
  intro out
  have hstart : (PacketVerify.new (C.ed25519PublicKey keyPair) start).Follows keyPair
      ⟨payloads, 0, Nat.zero_le _⟩ := ⟨rfl, rfl⟩
  obtain ⟨c, hlog, hfollows, hpassed⟩ := hstart.feed hcount unforged inputs
  -- The cursor started at the first payload, so what it has passed is what was accepted.
  have htaken : c.taken = out.1 := hpassed
  clear hpassed
  obtain rfl : c.log = payloads := hlog
  refine ⟨?_, fun input hnone => ?_, ?_⟩
  · rw [← htaken]
    exact List.take_prefix _ _
  · rcases present_cases V out.2 input with ⟨sig, msg, -, hrun⟩ | ⟨-, hsame⟩
    · rw [hrun] at hnone
      cases hnone
    · exact hsame
  · intro k hk input hlength hdata hidle
    obtain rfl : c.pos = k := by
      rw [← hlength, ← htaken]
      exact (List.length_take_of_le c.pos_le).symm
    exact hfollows.present_genuine hvouched hk hdata hidle

/-- The first packet of a sample signer. -/
def sampleInput : WireInput where
  data := @genuineWire Crypto.sample (0 : UInt8) [[7, 8]] 0 (by decide)
  serverUnique := none
  connVerifier := none
  quantumInsecure := false
  now := 0
  later := 0

/-- It is accepted behind an input that is too short for a signature. -/
theorem accepts_genuine_sequence_sample :
    let out := (PacketVerify.new (Crypto.sample.ed25519PublicKey (0 : UInt8)) 0).feed
      Channel.sampleVerifier [{ sampleInput with data := [packetTypePayload] }]
    (out.2.present Channel.sampleVerifier sampleInput).1 = .ok (.payload [7, 8]) := by
  have hmem : ∀ input, input ∈ signedInputs [[7, 8]] ↔ input = packetSignatureInput 0 [7, 8] :=
    fun input => List.mem_singleton
  have unforged : Channel.sampleVerifier.Ed25519Unforgeable
      (Crypto.sample.ed25519PublicKey (0 : UInt8)).1 (· ∈ signedInputs [[7, 8]]) := by
    intro message signature hverdict
    obtain ⟨-, rfl⟩ := Prod.mk.inj (List.mem_singleton.mp (Verifier.recording_ed25519.mp hverdict))
    exact (hmem _).mpr rfl
  have hvouched : @Vouched Crypto.sample Channel.sampleVerifier (0 : UInt8) [[7, 8]] := by
    intro input hinput
    obtain rfl := (hmem input).mp hinput
    exact Verifier.recording_ed25519.mpr List.mem_cons_self
  obtain ⟨-, -, hgenuine⟩ := accepts_genuine_sequence (C := Crypto.sample)
    Channel.sampleVerifier (0 : UInt8) [[7, 8]] (by decide) unforged hvouched 0
    [{ sampleInput with data := [packetTypePayload] }]
  exact hgenuine 0 (by decide) sampleInput rfl rfl (by decide)

end Axsh.PacketVerify

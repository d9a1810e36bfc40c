/-
# Bytes of a peer are parsed or refused

The functions that take bytes of the peer apart, from the frame decoder to the packet
parser, index, cut and subtract where a check has been made before, often by a caller.
None of them panics, on any bytes: the rule `Res.NoPanic.ensure_bind` hands what a check
has established to the code after it, and each function has one lemma that its callers use.
-/

import Axsh.Hdlc.Reader
import Axsh.Packet

set_option autoImplicit false

namespace Axsh

/-! ## Frames -/

namespace Hdlc

theorem unescapeLoop_noPanic (unescaped : Bytes) (escaped : Bool) (bytes : Bytes) :
    (unescapeLoop unescaped escaped bytes).NoPanic := by
  rw [unescapeLoop_eq]
  split
  · exact noPanic_ok _
  · exact noPanic_bail _

theorem checkFcs_noPanic (unescaped : Bytes) : (checkFcs unescaped).NoPanic := by
  refine Res.NoPanic.ensure_bind fun hlen => ?_
  -- Two bytes are there, so the length is that of the payload and two more.
  rw [usizeSub_eq hlen, ok_bind, slice_eq (Nat.zero_le _) (Nat.sub_le ..), ok_bind,
    index_eq (by omega), ok_bind, index_eq (by omega), ok_bind]
  exact Res.NoPanic.ensure_bind fun _ => noPanic_ok _

theorem decode_noPanic (frame : Bytes) : (decode frame).NoPanic := by
  refine Res.NoPanic.ensure_bind fun _ => Res.NoPanic.ensure_bind fun hlen => ?_
  refine Res.NoPanic.ensure_bind fun _ => Res.NoPanic.ensure_bind fun _ => ?_
  rw [usizeSub_eq (by omega), ok_bind, slice_eq (by omega) (Nat.sub_le ..), ok_bind]
  refine (unescapeLoop_noPanic _ _ _).bind fun unstuffed _ => ?_
  exact Res.NoPanic.ensure_bind fun _ => checkFcs_noPanic _

theorem pushFrameByte_noPanic (frame : Bytes) (byte : UInt8) :
    (pushFrameByte frame byte).NoPanic := by
  unfold pushFrameByte
  split_ifs
  · exact noPanic_error _ _
  · exact noPanic_ok _

/-- What a round of the frame reader returns is no panic. -/
theorem AsyncFrameReader.readOne_noPanic {self next : AsyncFrameReader} {answer : ReadResult}
    {result : Res (Option Bytes)} (h : self.readOne answer = (next, some (.ready result))) :
    result.NoPanic := by
  cases answer with
  | pending => cases h
  | error kind message =>
    obtain rfl := Poll.ready.inj (Option.some.inj (Prod.mk.inj h).2)
    exact noPanic_error kind message
  | eof =>
    simp only [readOne] at h
    split_ifs at h
    · obtain rfl := Poll.ready.inj (Option.some.inj (Prod.mk.inj h).2)
      exact noPanic_error _ _
    · obtain rfl := Poll.ready.inj (Option.some.inj (Prod.mk.inj h).2)
      exact noPanic_ok _
  | byte byte =>
    -- A round returns on a byte only inside a frame: the error of a full frame, or the frame.
    have hpush := pushFrameByte_noPanic self.frame byte
    simp only [readOne] at h
    by_cases hin : self.inFrame
    · rw [if_pos hin] at h
      cases hframe : pushFrameByte self.frame byte with
      | error e =>
        rw [hframe] at h hpush
        obtain rfl := Poll.ready.inj (Option.some.inj (Prod.mk.inj h).2)
        exact hpush.error
      | ok frame =>
        simp only [hframe] at h
        split_ifs at h
        · obtain rfl := Poll.ready.inj (Option.some.inj (Prod.mk.inj h).2)
          exact noPanic_ok _
        · cases (Prod.mk.inj h).2
    · rw [if_neg hin] at h
      split_ifs at h
      · cases (Prod.mk.inj h).2
      · cases (Prod.mk.inj h).2

theorem AsyncFrameReader.pollReadFrame_noPanic {self next : AsyncFrameReader}
    {answers rest : List ReadResult} {result : Res (Option Bytes)}
    (h : self.pollReadFrame answers = (next, rest, .ready result)) : result.NoPanic := by
  induction answers generalizing self with
  | nil => cases h
  | cons answer answers ih =>
    rw [pollReadFrame] at h
    rcases hone : self.readOne answer with ⟨reader, returned⟩
    cases returned with
    | some out =>
      simp only [hone, Prod.mk.injEq] at h
      obtain ⟨-, -, rfl⟩ := h
      exact readOne_noPanic hone
    | none =>
      simp only [hone] at h
      exact ih h

theorem frameOrEof_noPanic {result : Res (Option Bytes)} (h : result.NoPanic) :
    (frameOrEof result).NoPanic := by
  match result, h with
  | .ok (some frame), _ => exact noPanic_ok frame
  | .ok none, _ => exact noPanic_error _ _
  | .error e, h => exact h.error

end Hdlc

/-! ## Fields and bodies -/

theorem takeU64_noPanic (data : Bytes) : (takeU64 data).NoPanic := by
  refine Res.NoPanic.ensure_bind fun hlen => ?_
  rw [splitAt_eq hlen, ok_bind]
  simp only [toFixed?_eq (List.length_take_of_le hlen)]
  exact noPanic_ok _

theorem takeFixed_noPanic (n : ℕ) (data : Bytes) : (takeFixed n data).NoPanic := by
  refine Res.NoPanic.ensure_bind fun hlen => ?_
  rw [splitAt_eq hlen, ok_bind]
  simp only [toFixed?_eq (List.length_take_of_le hlen)]
  exact noPanic_ok _

theorem signedMessage_noPanic (data : Bytes) (signatureLen : ℕ) :
    (signedMessage data signatureLen).NoPanic := by
  refine Res.NoPanic.ensure_bind fun hlen => ?_
  rw [slice_eq hlen le_rfl]
  exact noPanic_ok _

theorem decodeServerHello_noPanic (data : Bytes) : (decodeServerHello data).NoPanic := by
  refine (takeFixed_noPanic _ data).bind fun parsed _ => ?_
  obtain ⟨magic, rest⟩ := parsed
  refine Res.NoPanic.ensure_bind fun _ => ?_
  refine (takeFixed_noPanic 1 rest).bind fun parsed _ => ?_
  obtain ⟨version, rest⟩ := parsed
  -- The version is an array of one byte.
  have hversion : 0 < version.1.length := Nat.one_pos.trans_eq version.2.symm
  simp only [index_eq hversion, ok_bind]
  refine Res.NoPanic.ensure_bind fun _ => ?_
  refine (takeU64_noPanic rest).bind fun parsed _ => ?_
  obtain ⟨unique, rest⟩ := parsed
  refine (takeFixed_noPanic _ rest).bind fun parsed _ => ?_
  obtain ⟨digest, rest⟩ := parsed
  refine (takeFixed_noPanic _ rest).bind fun parsed _ => ?_
  obtain ⟨key, rest⟩ := parsed
  exact Res.NoPanic.ensure_bind fun _ => noPanic_ok _

theorem decodeClientHello_noPanic (data : Bytes) : (decodeClientHello data).NoPanic := by
  refine (takeU64_noPanic data).bind fun parsed _ => ?_
  obtain ⟨unique, rest⟩ := parsed
  refine (takeFixed_noPanic _ rest).bind fun parsed _ => ?_
  obtain ⟨digest, rest⟩ := parsed
  refine (takeFixed_noPanic _ rest).bind fun parsed _ => ?_
  obtain ⟨key, rest⟩ := parsed
  exact Res.NoPanic.ensure_bind fun _ => noPanic_ok _

theorem decodeServerComplete_noPanic (data : Bytes) (quantumInsecure : Bool) :
    (decodeServerComplete data quantumInsecure).NoPanic :=
  Res.NoPanic.ensure_bind fun _ => noPanic_ok data

/-! ## Signatures -/

theorem ConnVerify.verify_noPanic (V : Verifier) (self : ConnVerify) (data : Bytes) :
    (self.verify V data).NoPanic := by
  rcases self.verify_eq V data with ⟨sig, msg, -, -, hrun⟩ | ⟨-, hrun⟩
  · rw [hrun]
    exact noPanic_ok _
  · rw [hrun]
    exact noPanic_ok _

theorem ConnVerify.verifyDetached_noPanic (V : Verifier) (self : ConnVerify)
    (signature data : Bytes) : (self.verifyDetached V signature data).NoPanic :=
  (self.verify_noPanic V _).bind fun _ _ => noPanic_ok _

theorem verifyConnSigned_noPanic (V : Verifier) (data : Bytes) (serverUnique : UInt64)
    (verifier : ConnVerify) : (verifyConnSigned V data serverUnique verifier).NoPanic := by
  rcases verifier.verifyPrefixed_eq V (u64ToBeBytes serverUnique) data with
    ⟨sig, msg, -, -, hrun⟩ | ⟨-, hrun⟩
  · rw [verifyConnSigned, hrun]
    exact noPanic_ok _
  · rw [verifyConnSigned, hrun]
    exact noPanic_bail _

/-! ## Packets -/

namespace Packet

theorem peekType_noPanic (data : Bytes) : (peekType data).NoPanic := by
  cases data with
  | nil => exact noPanic_bail _
  | cons packetType rest => exact noPanic_ok packetType

theorem peekClientHello_noPanic (data : Bytes) (quantumInsecure : Bool) :
    (peekClientHello data quantumInsecure).NoPanic := by
  cases data with
  | nil => exact noPanic_bail _
  | cons packetType rest =>
    refine Res.NoPanic.ensure_bind fun _ => ?_
    exact (signedMessage_noPanic rest _).bind fun body _ => decodeClientHello_noPanic body

section Deserialize

variable (V : Verifier) (clientHelloServerUnique : Option UInt64)
  (connVerifier : Option ConnVerify) (packetVerifier : Option PacketVerify)
  (quantumInsecure : Bool) (now later : Instant)

/-- The `ClientHello` branch of `deserialize`. -/
theorem deserialize_clientHello_noPanic (rest : Bytes) :
    (deserialize V (packetTypeClientHello :: rest) clientHelloServerUnique connVerifier
      packetVerifier quantumInsecure now later).1.NoPanic := by
  refine (peekClientHello_noPanic _ quantumInsecure).bind fun hello _ => ?_
  match clientHelloServerUnique, connVerifier with
  | none, _ => exact noPanic_bail _
  | some serverUnique, none => exact noPanic_bail _
  | some serverUnique, some verifier =>
    exact (verifyConnSigned_noPanic V rest serverUnique verifier).bind fun _ _ => noPanic_ok _

/-- The `Payload` branch of `deserialize`. -/
theorem deserialize_payload_noPanic (rest : Bytes) :
    (deserialize V (packetTypePayload :: rest) clientHelloServerUnique connVerifier
      packetVerifier quantumInsecure now later).1.NoPanic := by
  match packetVerifier with
  | none => exact noPanic_bail _
  | some verifier =>
    rcases deserialize_payload_eq V clientHelloServerUnique connVerifier quantumInsecure now later
      verifier rest with ⟨sig, msg, -, -, hrun⟩ | ⟨-, hrun⟩
    · rw [hrun]
      exact noPanic_ok _
    · rw [hrun]
      exact noPanic_bail _

/-- `deserialize` returns a packet or an error on any bytes, whatever verifiers it is
given. -/
theorem deserialize_noPanic (data : Bytes) :
    (deserialize V data clientHelloServerUnique connVerifier packetVerifier quantumInsecure
      now later).1.NoPanic := by
  match data with
  | [] => exact noPanic_bail _
  | packetType :: rest =>
    by_cases hclient : packetType = packetTypeClientHello
    · subst hclient
      exact deserialize_clientHello_noPanic V _ _ _ _ _ _ rest
    by_cases hpayload : packetType = packetTypePayload
    · subst hpayload
      exact deserialize_payload_noPanic V _ _ _ _ _ _ rest
    -- The branches without a verifier parse the body only.
    simp only [deserialize, if_neg hclient, if_neg hpayload]
    split_ifs
    · exact (decodeServerHello_noPanic rest).bind fun _ _ => noPanic_ok _
    · exact Res.NoPanic.ensure_bind fun _ => noPanic_ok _
    · exact noPanic_ok _
    · exact (decodeServerComplete_noPanic rest quantumInsecure).bind fun _ _ => noPanic_ok _
    · exact noPanic_bail _

end Deserialize

/-- A packet under the type byte of a request is one. -/
theorem eq_requestServerPubkey_of_typeByte {packet : Packet}
    (h : packet.typeByte = packetTypeRequestServerPubkey) : packet = .requestServerPubkey := by
  cases packet with
  | requestServerPubkey => rfl
  | serverHello | serverPubkey | clientHello | serverComplete | payload =>
    simp [typeByte, packetTypeRequestServerPubkey, packetTypeServerHello, packetTypeServerPubkey,
      packetTypeClientHello, packetTypeServerComplete, packetTypePayload] at h

/-- A packet under the type byte of a client hello is one. -/
theorem exists_clientHello_of_typeByte {packet : Packet}
    (h : packet.typeByte = packetTypeClientHello) : ∃ hello, packet = .clientHello hello := by
  cases packet with
  | clientHello hello => exact ⟨hello, rfl⟩
  | serverHello | requestServerPubkey | serverPubkey | serverComplete | payload =>
    simp [typeByte, packetTypeRequestServerPubkey, packetTypeServerHello, packetTypeServerPubkey,
      packetTypeClientHello, packetTypeServerComplete, packetTypePayload] at h

end Packet

end Axsh

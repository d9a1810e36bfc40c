/-
# HDLC frames: the codec

`encode` wraps a payload and its frame check sequence between two flags, with
flag and escape bytes stuffed; `decode` checks a frame and returns its payload.

The code stuffs by pushing onto a vector and unstuffs in a loop with an escape
bit. Both are instances of the stuffing library (`escapeInto_eq`,
`unescapeLoop_eq`), and `decode_eq_ok_iff` says once which frames are accepted:
everything the other modules use about `decode` follows from it.
-/

import Axsh.Basic
import Axsh.Lib.Stuffing

set_option autoImplicit false

namespace Axsh.Hdlc

def flag : UInt8 := 0x7e
def escape : UInt8 := 0x7d
def escapeXor : UInt8 := 0x20
def initialFcs : UInt16 := 0xffff
def fcsPoly : UInt16 := 0x8408
def maxFrameSize : ℕ := 64 * 1024

/-! ## The frame check sequence -/

/-- One round of the loop in `update_fcs`. -/
def updateFcsBit (fcs : UInt16) : UInt16 :=
  if fcs &&& 1 ≠ 0 then (fcs >>> 1) ^^^ fcsPoly else fcs >>> 1

/-- `update_fcs`: feed one byte to the check register, eight rounds. -/
def updateFcs (fcs : UInt16) (byte : UInt8) : UInt16 :=
  updateFcsBit^[8] (fcs ^^^ byte.toUInt16)

/-- `frame_fcs`. -/
def frameFcs (payload : Bytes) : UInt16 := ~~~(payload.foldl updateFcs initialFcs)

/-- `u16::to_le_bytes`. -/
def u16ToLeBytes (n : UInt16) : Bytes := [UInt8.ofNat n.toNat, UInt8.ofNat (n.toNat / 256)]

/-- `u16::from_le_bytes`. -/
def u16FromLeBytes (low high : UInt8) : UInt16 := UInt16.ofNat (low.toNat + 256 * high.toNat)

@[simp] theorem length_u16ToLeBytes (n : UInt16) : (u16ToLeBytes n).length = 2 := rfl

/-- Two bytes are the little-endian form of exactly the number they stand for. -/
theorem u16FromLeBytes_eq_iff (n : UInt16) (low high : UInt8) :
    n = u16FromLeBytes low high ↔ [low, high] = u16ToLeBytes n := by
  have hn := n.toNat_lt
  have hlow := low.toNat_lt
  have hhigh := high.toNat_lt
  simp only [u16ToLeBytes, u16FromLeBytes, List.cons.injEq, and_true, ← UInt16.toNat_inj,
    ← UInt8.toNat_inj, UInt16.toNat_ofNat', UInt8.toNat_ofNat']
  omega

/-! ## Encoding -/

/-- `escape_into`: push the stuffed bytes onto `out`. -/
def escapeInto (bytes out : Bytes) : Bytes :=
  bytes.foldl (fun out byte =>
    if byte = flag ∨ byte = escape then out ++ [escape, byte ^^^ escapeXor] else out ++ [byte]) out

/-- Encode a payload into an HDLC frame with byte-stuffing and a CRC-16 FCS. -/
def encode (payload : Bytes) : Bytes :=
  let fcs := frameFcs payload
  let framed := [flag]
  let framed := escapeInto payload framed
  let framed := escapeInto (u16ToLeBytes fcs) framed
  framed ++ [flag]

/-! ## Decoding -/

/-- The loop of `decode` over the bytes between the flags, with the bytes it has
unescaped so far and whether the last byte was an escape. -/
def unescapeLoop (unescaped : Bytes) (escaped : Bool) : Bytes → Res (Bytes × Bool)
  | [] => .ok (unescaped, escaped)
  | byte :: rest =>
    -- The byte after an escape is unmasked and kept whatever it is, before it can be taken for a
    -- flag or an escape.
    if escaped then unescapeLoop (unescaped ++ [byte ^^^ escapeXor]) false rest
    else if byte = escape then unescapeLoop unescaped true rest
    else if byte = flag then bail "unexpected flag inside frame"
    else unescapeLoop (unescaped ++ [byte]) false rest

/-- The end of `decode`: split off the last two unescaped bytes and compare them
with the check sequence of the payload before them. -/
def checkFcs (unescaped : Bytes) : Res Bytes := do
  ensure (2 ≤ unescaped.length) "frame missing FCS"
  let payloadLen ← usizeSub unescaped.length 2
  let payload ← slice unescaped 0 payloadLen
  let low ← index unescaped payloadLen
  let high ← index unescaped (payloadLen + 1)
  ensure (frameFcs payload = u16FromLeBytes low high) "frame FCS mismatch"
  return payload

/-- Decode an HDLC frame, removing byte-stuffing and validating the CRC-16 FCS. -/
def decode (frame : Bytes) : Res Bytes := do
  ensure (frame.length ≤ maxFrameSize) "frame too large"
  ensure (4 ≤ frame.length) "frame too short"
  -- At least the two flags and two bytes between them are there from here on.
  ensure (frame.head? = some flag) "frame missing opening flag"
  ensure (frame.getLast? = some flag) "frame missing closing flag"
  let stop ← usizeSub frame.length 1
  let interior ← slice frame 1 stop
  let (unescaped, escaped) ← unescapeLoop [] false interior
  ensure (escaped = false) "frame ends with dangling escape"
  checkFcs unescaped

/-! ## The codec as a stuffing -/

/-- The stuffing of the code's flag, escape and mask. -/
def stuffing : Stuffing UInt8 where
  flag := flag
  esc := escape
  mask byte := byte ^^^ escapeXor
  flag_ne_esc := by decide
  mask_mask byte := by rw [UInt8.xor_assoc, UInt8.xor_self, UInt8.xor_zero]
  mask_flag_ne := by decide
  mask_esc_ne := by decide

theorem escapeInto_eq (bytes out : Bytes) :
    escapeInto bytes out = out ++ stuffing.stuff bytes := by
  induction bytes generalizing out with
  | nil => simp [escapeInto]
  | cons byte bytes ih =>
    rw [Stuffing.stuff_cons, ← List.append_assoc, ← ih]
    rw [escapeInto, List.foldl_cons, Stuffing.stuffSymbol]
    by_cases h : byte = flag ∨ byte = escape
    · rw [if_pos h, if_pos (show stuffing.Reserved byte from h)]
      rfl
    · rw [if_neg h, if_neg (show ¬ stuffing.Reserved byte from h)]
      rfl

/-- What stands between the flags of the frame of `payload`. -/
def body (payload : Bytes) : Bytes :=
  stuffing.stuff (payload ++ u16ToLeBytes (frameFcs payload))

theorem encode_eq (payload : Bytes) : encode payload = flag :: (body payload ++ [flag]) := by
  simp [encode, body, escapeInto_eq, Stuffing.stuff_append]

theorem flag_notMem_body (payload : Bytes) : flag ∉ body payload :=
  stuffing.flag_notMem_stuff _

theorem length_encode (payload : Bytes) : (encode payload).length = (body payload).length + 2 := by
  simp [encode_eq]

theorem length_body (payload : Bytes) :
    (body payload).length = payload.length + 2 +
      (payload ++ u16ToLeBytes (frameFcs payload)).countP (fun b => stuffing.Reserved b) := by
  rw [body, Stuffing.length_stuff, List.length_append, length_u16ToLeBytes]

/-- The worst case of stuffing doubles every byte. -/
theorem length_encode_le (payload : Bytes) : (encode payload).length ≤ 2 * payload.length + 6 := by
  have h := stuffing.length_stuff_le (payload ++ u16ToLeBytes (frameFcs payload))
  rw [List.length_append, length_u16ToLeBytes] at h
  rw [length_encode, body]
  omega

/-- A message of this length has a frame that fits, whatever its bytes. -/
theorem length_encode_le_max {payload : Bytes} (h : payload.length ≤ 32765) :
    (encode payload).length ≤ maxFrameSize := by
  have hle := length_encode_le payload
  have hmax : maxFrameSize = 65536 := rfl
  omega

theorem unescapeLoop_eq (unescaped : Bytes) (escaped : Bool) (bytes : Bytes) :
    unescapeLoop unescaped escaped bytes =
      match stuffing.scan escaped bytes with
      | some (message, last) => .ok (unescaped ++ message, last)
      | none => bail "unexpected flag inside frame" := by
  induction bytes generalizing unescaped escaped with
  | nil => simp [unescapeLoop, Stuffing.scan]
  | cons byte rest ih =>
    -- The scan has the loop's four branches, without the accumulator.
    cases escaped with
    | true =>
      simp only [unescapeLoop, if_true, ih, Stuffing.scan]
      cases stuffing.scan false rest <;> simp [stuffing]
    | false =>
      simp only [unescapeLoop, Bool.false_eq_true, if_false, Stuffing.scan]
      by_cases hesc : byte = escape
      · simp [hesc, ih, stuffing]
      · by_cases hflag : byte = flag
        · simp [hflag, stuffing, flag, escape]
        · simp only [hesc, hflag, if_false, ih, stuffing]
          cases Stuffing.scan _ false rest <;> simp

/-- A frame between two flags, of at least four bytes. -/
theorem exists_interior {frame : Bytes} (hlen : 4 ≤ frame.length) (hhead : frame.head? = some flag)
    (hlast : frame.getLast? = some flag) :
    ∃ interior, frame = flag :: (interior ++ [flag]) := by
  obtain ⟨rest, rfl⟩ := List.head?_eq_some_iff.mp hhead
  have hrest : rest ≠ [] := by
    rintro rfl
    simp at hlen
  obtain ⟨front, last, rfl⟩ := (List.eq_nil_or_concat rest).resolve_left hrest
  rw [List.concat_eq_append] at *
  refine ⟨front, ?_⟩
  rw [← List.cons_append, List.getLast?_concat] at hlast
  rw [Option.some_inj.mp hlast]

theorem slice_interior (interior : Bytes) :
    slice (flag :: (interior ++ [flag])) 1 (interior.length + 1) = .ok interior := by
  rw [slice_eq (by omega) (by simp)]
  simp

/-- What is left of `decode` once the flags are off. -/
theorem decode_flagged {interior : Bytes} (hsize : interior.length + 2 ≤ maxFrameSize)
    (hlen : 2 ≤ interior.length) :
    decode (flag :: (interior ++ [flag])) = (do
      let (unescaped, escaped) ← unescapeLoop [] false interior
      ensure (escaped = false) "frame ends with dangling escape"
      checkFcs unescaped) := by
  have hlength : (flag :: (interior ++ [flag])).length = interior.length + 2 := by simp
  have hhead : (flag :: (interior ++ [flag])).head? = some flag := rfl
  have hlast : (flag :: (interior ++ [flag])).getLast? = some flag := by
    rw [← List.cons_append, List.getLast?_concat]
  rw [decode, hlength, ensure_pos _ hsize, ensure_pos _ (by omega), ensure_pos _ hhead,
    ensure_pos _ hlast, usizeSub_eq (by omega)]
  simp only [ok_bind, Nat.reduceSubDiff]
  rw [slice_interior]
  rfl

/-- The last two unescaped bytes must be the check sequence of those before them. -/
theorem checkFcs_eq_ok_iff (unescaped payload : Bytes) :
    checkFcs unescaped = .ok payload ↔
      unescaped = payload ++ u16ToLeBytes (frameFcs payload) := by
  unfold checkFcs
  by_cases hlen : 2 ≤ unescaped.length
  · -- The indices of the code cut the last two bytes off.
    obtain ⟨front, tail, rfl, htail⟩ : ∃ front tail, unescaped = front ++ tail ∧ tail.length = 2 :=
      ⟨unescaped.take (unescaped.length - 2), unescaped.drop (unescaped.length - 2),
        (List.take_append_drop ..).symm, by rw [List.length_drop]; omega⟩
    obtain ⟨low, high, rfl⟩ := List.length_eq_two.mp htail
    have hsub : (front ++ [low, high]).length - 2 = front.length := by simp
    rw [ensure_pos _ hlen, ok_bind, usizeSub_eq hlen, ok_bind, hsub,
      slice_eq (Nat.zero_le _) (by simp), ok_bind, index_eq (by simp), ok_bind,
      index_eq (by simp), ok_bind]
    simp only [List.take_left, List.drop_zero, List.getElem_append_right, Nat.sub_self, le_refl,
      List.getElem_cons_zero]
    have hlt : front.length + 1 < (front ++ [low, high]).length := by simp
    have hhigh : (front ++ [low, high])[front.length + 1] = high := by
      rw [List.getElem_append_right (by omega)]
      simp
    rw [hhigh]
    constructor
    · intro h
      obtain ⟨_, hfcs, hpayload⟩ := bind_eq_ok.mp h
      obtain rfl : front = payload := Except.ok.inj hpayload
      rw [(u16FromLeBytes_eq_iff _ _ _).mp (ensure_eq_ok.mp hfcs)]
    · intro h
      obtain ⟨rfl, hbytes⟩ := List.append_inj' h (by simp)
      rw [ensure_pos _ ((u16FromLeBytes_eq_iff _ _ _).mpr hbytes)]
      rfl
  · rw [ensure_neg _ hlen]
    constructor
    · intro h
      simp [bail] at h
    · rintro rfl
      simp at hlen

/-- The frames `decode` accepts: two flags around bytes that unstuff to the
payload followed by its check sequence, within the size limit. -/
theorem decode_eq_ok_iff (frame payload : Bytes) :
    decode frame = .ok payload ↔
      frame.length ≤ maxFrameSize ∧ ∃ interior, frame = flag :: (interior ++ [flag]) ∧
        stuffing.scan false interior =
          some (payload ++ u16ToLeBytes (frameFcs payload), false) := by
  constructor
  · intro h
    -- Each check of the code in turn gives a fact about the frame.
    obtain ⟨_, hsize, h1⟩ := bind_eq_ok.mp h
    obtain ⟨_, hlen, h2⟩ := bind_eq_ok.mp h1
    obtain ⟨_, hhead, h3⟩ := bind_eq_ok.mp h2
    obtain ⟨_, hlast, -⟩ := bind_eq_ok.mp h3
    rw [ensure_eq_ok] at hsize hlen hhead hlast
    obtain ⟨interior, rfl⟩ := exists_interior hlen hhead hlast
    refine ⟨hsize, interior, rfl, ?_⟩
    simp only [List.length_cons, List.length_append, List.length_nil] at hsize hlen
    rw [decode_flagged (by omega) (by omega), unescapeLoop_eq] at h
    cases hscan : stuffing.scan false interior with
    | none => simp [hscan, bail] at h
    | some result =>
      obtain ⟨message, last⟩ := result
      simp only [hscan, List.nil_append, ok_bind] at h
      obtain ⟨_, hescaped, h⟩ := bind_eq_ok.mp h
      rw [ensure_eq_ok] at hescaped
      rw [(checkFcs_eq_ok_iff _ _).mp h, hescaped]
  · rintro ⟨hsize, interior, rfl, hscan⟩
    -- Unstuffing does not make bytes, so the interior holds at least the check sequence.
    have hlen : 2 ≤ interior.length := by
      have := stuffing.length_le_of_scan hscan
      simp at this
      omega
    rw [List.length_cons, List.length_append, List.length_singleton] at hsize
    rw [decode_flagged hsize hlen, unescapeLoop_eq, hscan]
    simp only [List.nil_append, ok_bind]
    rw [ensure_pos _ trivial, ok_bind]
    exact (checkFcs_eq_ok_iff _ _).mpr rfl

/-- Decoding an encoded payload returns it, as long as the frame is not too large. -/
theorem decode_encode {payload : Bytes} (h : (encode payload).length ≤ maxFrameSize) :
    decode (encode payload) = .ok payload :=
  (decode_eq_ok_iff _ _).mpr ⟨h, body payload, encode_eq payload, stuffing.scan_stuff _⟩

end Axsh.Hdlc

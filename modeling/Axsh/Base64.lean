/-
# Base64

The encoding of bytes as base64 text and its decoder, which recovers the bytes,
and the fingerprint form of a digest, which is the text without its padding.
-/

import Axsh.Crypto
import Axsh.Text

set_option autoImplicit false

namespace Axsh

/-- `BASE64_ALPHABET`. -/
def base64Alphabet : List Char :=
  "ABCDEFGHIJKLMNOPQRSTUVWXYZabcdefghijklmnopqrstuvwxyz0123456789+/".toList

/-- `BASE64_ALPHABET[((word >> shift) & 0x3f) as usize] as char`. -/
def base64Char (word shift : UInt32) : Char :=
  base64Alphabet.getD ((word >>> shift) &&& 0x3f).toNat '='

/-- The four characters of a chunk of one to three bytes. -/
def encodeBase64Chunk (b0 : UInt8) (b1 b2 : Option UInt8) : List Char :=
  let word := b0.toUInt32 <<< 16 ||| (b1.getD 0).toUInt32 <<< 8 ||| (b2.getD 0).toUInt32
  [base64Char word 18, base64Char word 12,
    if b1.isSome then base64Char word 6 else '=',
    if b2.isSome then base64Char word 0 else '=']

/-- `encode_base64`. -/
def encodeBase64 : Bytes → List Char
  | [] => []
  | [b0] => encodeBase64Chunk b0 none none
  | [b0, b1] => encodeBase64Chunk b0 (some b1) none
  | b0 :: b1 :: b2 :: rest => encodeBase64Chunk b0 (some b1) (some b2) ++ encodeBase64 rest

/-- Format a SHA-256 digest in OpenSSH fingerprint style. -/
def formatSha256Digest (digest : Fixed sha256DigestLen) : String :=
  let encoded := encodeBase64 digest.1
  "SHA256:" ++ String.ofList (encoded.reverse.dropWhile (· = '=')).reverse

/-- `foo`, its fronts, and the padding they take. -/
example : [encodeBase64 [], encodeBase64 [0x66], encodeBase64 [0x66, 0x6f],
    encodeBase64 [0x66, 0x6f, 0x6f]].map String.ofList = ["", "Zg==", "Zm8=", "Zm9v"] := by decide

/-! ## Decoding -/

/-- `decode_char`. -/
def decodeChar (byte : UInt8) : Res UInt8 :=
  if 0x41 ≤ byte ∧ byte ≤ 0x5a then .ok (byte - 0x41)
  else if 0x61 ≤ byte ∧ byte ≤ 0x7a then .ok (byte - 0x61 + 26)
  else if 0x30 ≤ byte ∧ byte ≤ 0x39 then .ok (byte - 0x30 + 52)
  else if byte = 0x2b then .ok 62
  else if byte = 0x2f then .ok 63
  else bail "invalid base64 character"

/-- The loop of `decode_base64` over chunks of four bytes. `0x3d` is the padding
`=`; a chunk is the last one when nothing follows it. -/
def decodeBase64Chunks : Bytes → Res Bytes
  | [] => .ok []
  | c0 :: c1 :: c2 :: c3 :: rest => do
    let a ← decodeChar c0
    let b ← decodeChar c1
    let first := (a <<< 2) ||| (b >>> 4)
    if c2 = 0x3d ∧ c3 = 0x3d then
      ensure (rest = []) "padding must appear only in the final chunk"
      .ok [first]
    else if c2 = 0x3d then
      bail "invalid base64 padding"
    else if c3 = 0x3d then
      ensure (rest = []) "padding must appear only in the final chunk"
      let c ← decodeChar c2
      .ok [first, (b <<< 4) ||| (c >>> 2)]
    else
      let c ← decodeChar c2
      let d ← decodeChar c3
      let more ← decodeBase64Chunks rest
      .ok (first :: ((b <<< 4) ||| (c >>> 2)) :: ((c <<< 6) ||| d) :: more)
  | _ => .error (.panic "index out of bounds")

/-- `decode_base64`. -/
def decodeBase64 (data : Text) : Res Bytes := do
  ensure ((utf8 data).length % 4 = 0) "base64 length must be a multiple of 4"
  decodeBase64Chunks (utf8 data)

/-! ## The round trip

A chunk of the encoding is four indices into the alphabet, the base-64 digits of
its word. A character of the alphabet decodes to its index, and two neighbouring
indices hold one byte of the word between them. -/

theorem length_base64Alphabet : base64Alphabet.length = 64 := by decide

/-- The index a character is made from. -/
def base64Index (word shift : UInt32) : ℕ := ((word >>> shift) &&& 0x3f).toNat

theorem base64Index_lt (word shift : UInt32) : base64Index word shift < 64 := by
  rw [base64Index, UInt32.toNat_and]
  exact Nat.lt_succ_of_le Nat.and_le_right

set_option maxRecDepth 4000 in
/-- A character of the alphabet is one byte, not the padding, and decodes to its
index. -/
theorem decodeChar_alphabet : ∀ i < 64,
    let byte := UInt8.ofNat (base64Alphabet.getD i '=').toNat
    byte ≠ 0x3d ∧ utf8 [base64Alphabet.getD i '='] = [byte] ∧
      decodeChar byte = .ok (UInt8.ofNat i) := by
  decide

theorem decodeChar_base64Char (word shift : UInt32) :
    ∃ byte, byte ≠ 0x3d ∧ utf8 [base64Char word shift] = [byte] ∧
      decodeChar byte = .ok (UInt8.ofNat (base64Index word shift)) :=
  ⟨_, decodeChar_alphabet _ (base64Index_lt word shift)⟩

theorem or_eq_add {hi lo k : ℕ} (h : lo < 2 ^ k) : hi * 2 ^ k ||| lo = hi * 2 ^ k + lo := by
  rw [Nat.mul_comm, Nat.two_pow_add_eq_or_of_lt h]

/-- The word of a chunk is its bytes as digits. -/
theorem toNat_word (b0 b1 b2 : UInt8) :
    (b0.toUInt32 <<< 16 ||| b1.toUInt32 <<< 8 ||| b2.toUInt32).toNat =
      b0.toNat * 65536 + b1.toNat * 256 + b2.toNat := by
  have h0 := b0.toNat_lt
  have h1 := b1.toNat_lt
  have h2 := b2.toNat_lt
  have hlow : b1.toNat * 2 ^ 8 ||| b2.toNat = b1.toNat * 2 ^ 8 + b2.toNat := or_eq_add h2
  have hword : b0.toNat * 2 ^ 16 ||| (b1.toNat * 2 ^ 8 + b2.toNat) =
      b0.toNat * 2 ^ 16 + (b1.toNat * 2 ^ 8 + b2.toNat) := or_eq_add (by omega)
  simp only [UInt32.toNat_or, UInt32.toNat_shiftLeft, UInt8.toNat_toUInt32, UInt32.reduceToNat,
    Nat.shiftLeft_eq, Nat.reduceMod]
  rw [Nat.mod_eq_of_lt (by omega), Nat.mod_eq_of_lt (by omega), Nat.or_assoc, hlow, hword]
  omega

/-- The indices of a chunk are the base-64 digits of its word. -/
theorem base64Index_eq (word : UInt32) :
    base64Index word 18 = word.toNat / 262144 % 64 ∧ base64Index word 12 = word.toNat / 4096 % 64 ∧
      base64Index word 6 = word.toNat / 64 % 64 ∧ base64Index word 0 = word.toNat % 64 := by
  have hmask (n : ℕ) : n &&& 63 = n % 64 := Nat.and_two_pow_sub_one_eq_mod n 6
  simp [base64Index, Nat.shiftRight_eq_div_pow, hmask]

/-- Two neighbouring indices, the first shifted up by `up` bits and the second
down by `down`, make one byte. -/
theorem toNat_recombine {hi lo up down : ℕ} (hlo : lo < 64) (hup : up < 8)
    (hsum : up + down = 6) :
    (UInt8.ofNat hi <<< UInt8.ofNat up ||| UInt8.ofNat lo >>> UInt8.ofNat down).toNat =
      hi % 2 ^ (8 - up) * 2 ^ up + lo / 2 ^ down := by
  have hdown : lo / 2 ^ down < 2 ^ up := by
    rw [Nat.div_lt_iff_lt_mul (Nat.two_pow_pos down), ← Nat.pow_add, hsum]
    exact hlo
  have hmod : hi % 256 * 2 ^ up % 256 = hi % 2 ^ (8 - up) * 2 ^ up := by
    have hpow : 256 = 2 ^ (8 - up) * 2 ^ up := by
      rw [← Nat.pow_add, Nat.sub_add_cancel hup.le]
    rw [Nat.mod_mul_mod, hpow, Nat.mul_mod_mul_right]
  rw [← or_eq_add hdown, ← hmod]
  simp [Nat.shiftLeft_eq, Nat.shiftRight_eq_div_pow, Nat.mod_eq_of_lt (show up < 256 by omega),
    Nat.mod_eq_of_lt (show down < 256 by omega), Nat.mod_eq_of_lt hup,
    Nat.mod_eq_of_lt (show down < 8 by omega), Nat.mod_eq_of_lt (show lo < 256 by omega)]

/-- What the decoder writes for a chunk are the bytes of its word. -/
theorem recombine_word (b0 b1 b2 : UInt8) :
    let word := b0.toUInt32 <<< 16 ||| b1.toUInt32 <<< 8 ||| b2.toUInt32
    let digit shift := UInt8.ofNat (base64Index word shift)
    (digit 18 <<< 2) ||| (digit 12 >>> 4) = b0 ∧ (digit 12 <<< 4) ||| (digit 6 >>> 2) = b1 ∧
      (digit 6 <<< 6) ||| digit 0 = b2 := by
  intro word digit
  have h0 := b0.toNat_lt
  have h1 := b1.toNat_lt
  have h2 := b2.toNat_lt
  have hword : word.toNat = b0.toNat * 65536 + b1.toNat * 256 + b2.toNat := toNat_word b0 b1 b2
  -- Each byte is put together from two digits of six bits; the shifts drop what belongs to the
  -- neighbouring bytes, and the rest is arithmetic on the word.
  obtain ⟨h18, h12, h6, hlast⟩ := base64Index_eq word
  have hlt := base64Index_lt word
  refine ⟨?_, ?_, ?_⟩
  · have hbyte := @toNat_recombine (base64Index word 18) _ 2 4 (hlt 12) (by omega) rfl
    apply UInt8.toNat_inj.mp
    apply hbyte.trans
    omega
  · have hbyte := @toNat_recombine (base64Index word 12) _ 4 2 (hlt 6) (by omega) rfl
    apply UInt8.toNat_inj.mp
    apply hbyte.trans
    omega
  · have hbyte := @toNat_recombine (base64Index word 6) _ 6 0 (hlt 0) (by omega) rfl
    apply UInt8.toNat_inj.mp
    -- The last digit is taken whole.
    have hshift : digit 0 >>> UInt8.ofNat 0 = digit 0 := by simp
    rw [hshift] at hbyte
    apply hbyte.trans
    omega

/-- The text of a whole chunk is four bytes, none of them padding at its end, and
their decodings hold the bytes of the chunk. -/
theorem exists_quad (b0 b1 b2 : UInt8) :
    let word := b0.toUInt32 <<< 16 ||| b1.toUInt32 <<< 8 ||| b2.toUInt32
    ∃ x0 x1 x2 x3 d0 d1 d2 d3 : UInt8,
      (utf8 [base64Char word 18] = [x0] ∧ utf8 [base64Char word 12] = [x1] ∧
        utf8 [base64Char word 6] = [x2] ∧ utf8 [base64Char word 0] = [x3]) ∧
      (x2 ≠ 0x3d ∧ x3 ≠ 0x3d) ∧
      (decodeChar x0 = .ok d0 ∧ decodeChar x1 = .ok d1 ∧ decodeChar x2 = .ok d2 ∧
        decodeChar x3 = .ok d3) ∧
      (d0 <<< 2) ||| (d1 >>> 4) = b0 ∧ (d1 <<< 4) ||| (d2 >>> 2) = b1 ∧
        (d2 <<< 6) ||| d3 = b2 := by
  intro word
  obtain ⟨x0, -, hx0, hd0⟩ := decodeChar_base64Char word 18
  obtain ⟨x1, -, hx1, hd1⟩ := decodeChar_base64Char word 12
  obtain ⟨x2, hne2, hx2, hd2⟩ := decodeChar_base64Char word 6
  obtain ⟨x3, hne3, hx3, hd3⟩ := decodeChar_base64Char word 0
  exact ⟨x0, x1, x2, x3, _, _, _, _, ⟨hx0, hx1, hx2, hx3⟩, ⟨hne2, hne3⟩, ⟨hd0, hd1, hd2, hd3⟩,
    recombine_word b0 b1 b2⟩

/-- Decoding the bytes of an encoding gives back the data. The cases are those of
the encoder: no bytes, a last chunk of one or two, and a whole chunk. -/
theorem decodeBase64Chunks_encodeBase64 (data : Bytes) :
    decodeBase64Chunks (utf8 (encodeBase64 data)) = .ok data := by
  induction data using encodeBase64.induct with
  | case1 => rfl
  | case2 b0 =>
    obtain ⟨x0, x1, -, -, d0, d1, -, -, ⟨hx0, hx1, -⟩, -, ⟨hd0, hd1, -⟩, hb0, -⟩ :=
      exists_quad b0 0 0
    -- Two characters and two paddings: the decoder stops at the third byte.
    have htext : utf8 (encodeBase64 [b0]) = [x0] ++ ([x1] ++ [0x3d, 0x3d]) := by
      have hpad : utf8 ['=', '='] = [0x3d, 0x3d] := by decide
      rw [← hx0, ← hx1, ← hpad, ← utf8_append, ← utf8_append]
      rfl
    rw [htext]
    simp [decodeBase64Chunks, hd0, hd1, ensure, hb0]
  | case3 b0 b1 =>
    obtain ⟨x0, x1, x2, -, d0, d1, d2, -, ⟨hx0, hx1, hx2, -⟩, ⟨hne2, -⟩, ⟨hd0, hd1, hd2, -⟩,
      hb0, hb1, -⟩ := exists_quad b0 b1 0
    -- Three characters and one padding: the decoder stops at the fourth byte.
    have htext : utf8 (encodeBase64 [b0, b1]) = [x0] ++ ([x1] ++ ([x2] ++ [0x3d])) := by
      have hpad : utf8 ['='] = [0x3d] := by decide
      rw [← hx0, ← hx1, ← hx2, ← hpad, ← utf8_append, ← utf8_append, ← utf8_append]
      rfl
    rw [htext]
    simp [decodeBase64Chunks, hd0, hd1, hd2, hne2, ensure, hb0, hb1]
  | case4 b0 b1 b2 rest ih =>
    obtain ⟨x0, x1, x2, x3, d0, d1, d2, d3, ⟨hx0, hx1, hx2, hx3⟩, ⟨hne2, hne3⟩,
      ⟨hd0, hd1, hd2, hd3⟩, hb0, hb1, hb2⟩ := exists_quad b0 b1 b2
    -- Neither of the last two bytes is padding, so the decoder goes on with the rest.
    have htext : utf8 (encodeBase64 (b0 :: b1 :: b2 :: rest)) =
        [x0] ++ ([x1] ++ ([x2] ++ ([x3] ++ utf8 (encodeBase64 rest)))) := by
      rw [← hx0, ← hx1, ← hx2, ← hx3, ← utf8_append, ← utf8_append, ← utf8_append, ← utf8_append]
      rfl
    rw [htext]
    simp [decodeBase64Chunks, hd0, hd1, hd2, hd3, hne2, hne3, hb0, hb1, hb2, ih]

/-- The characters of an encoding are those of the alphabet and the padding. -/
theorem mem_encodeBase64 {data : Bytes} {c : Char} (h : c ∈ encodeBase64 data) :
    c ∈ '=' :: base64Alphabet := by
  have hchar (word shift : UInt32) : base64Char word shift ∈ '=' :: base64Alphabet := by
    have hlt : base64Index word shift < base64Alphabet.length :=
      length_base64Alphabet.symm ▸ base64Index_lt word shift
    have hget : base64Char word shift = base64Alphabet[base64Index word shift] :=
      List.getElem_eq_getD '=' |>.symm
    rw [hget]
    exact List.mem_cons_of_mem _ (List.getElem_mem hlt)
  have hpad : '=' ∈ '=' :: base64Alphabet := List.mem_cons_self
  have hchunk (b0 : UInt8) (b1 b2 : Option UInt8) (hc : c ∈ encodeBase64Chunk b0 b1 b2) :
      c ∈ '=' :: base64Alphabet := by
    rcases List.mem_cons.mp hc with rfl | hc
    · exact hchar ..
    rcases List.mem_cons.mp hc with rfl | hc
    · exact hchar ..
    -- The last two characters are padding where the chunk has no byte for them.
    rcases List.mem_pair.mp hc with rfl | rfl
    · split_ifs
      · exact hchar ..
      · exact hpad
    · split_ifs
      · exact hchar ..
      · exact hpad
  induction data using encodeBase64.induct with
  | case1 => exact absurd h List.not_mem_nil
  | case2 b0 => exact hchunk _ _ _ h
  | case3 b0 b1 => exact hchunk _ _ _ h
  | case4 b0 b1 b2 rest ih =>
    rcases List.mem_append.mp h with h | h
    · exact hchunk _ _ _ h
    · exact ih h

/-- Neither the letters nor the padding are white space. -/
theorem isWhitespace_of_mem {c : Char} (h : c ∈ '=' :: base64Alphabet) :
    isWhitespace c = false := by
  have hall : ('=' :: base64Alphabet).all (!isWhitespace ·) := by decide
  simpa using List.all_eq_true.mp hall c h

/-- No white space stands in an encoding. -/
theorem isWhitespace_encodeBase64 {data : Bytes} {c : Char} (h : c ∈ encodeBase64 data) :
    isWhitespace c = false := isWhitespace_of_mem (mem_encodeBase64 h)

theorem encodeBase64_ne_nil {data : Bytes} (h : data ≠ []) : encodeBase64 data ≠ [] := by
  fun_cases encodeBase64 data <;> simp_all [encodeBase64Chunk]

/-- A text that ends with an encoding does not end with white space. -/
theorem isWhitespace_getLast?_encodeBase64 (front : Text) {data : Bytes} (h : data ≠ []) {c : Char}
    (hc : c ∈ (front ++ encodeBase64 data).getLast?) : isWhitespace c = false := by
  rw [List.getLast?_append_of_ne_nil _ (encodeBase64_ne_nil h)] at hc
  exact isWhitespace_encodeBase64 (List.mem_of_getLast? hc)

/-- The encoding is four characters for each chunk, the last one started or complete. -/
theorem length_encodeBase64 (data : Bytes) :
    (encodeBase64 data).length = (data.length + 2) / 3 * 4 := by
  have hchunk (b0 : UInt8) (b1 b2 : Option UInt8) : (encodeBase64Chunk b0 b1 b2).length = 4 := rfl
  induction data using encodeBase64.induct with
  | case1 => rfl
  | case2 b0 => rw [encodeBase64, hchunk, List.length_singleton]
  | case3 b0 b1 => rw [encodeBase64, hchunk, List.length_cons, List.length_singleton]
  | case4 b0 b1 b2 rest ih =>
    rw [encodeBase64, List.length_append, hchunk, ih]
    simp only [List.length_cons]
    omega

/-- The characters of an encoding are one byte each. -/
theorem length_utf8_encodeBase64 (data : Bytes) :
    (utf8 (encodeBase64 data)).length = (encodeBase64 data).length := by
  have hall : ('=' :: base64Alphabet).all fun c => (String.utf8EncodeChar c).length = 1 := by
    decide
  have hone (c : Char) (hc : c ∈ '=' :: base64Alphabet) : (String.utf8EncodeChar c).length = 1 := by
    simpa using List.all_eq_true.mp hall c hc
  have htext (text : Text) (h : ∀ c ∈ text, c ∈ '=' :: base64Alphabet) :
      (utf8 text).length = text.length := by
    induction text with
    | nil => rfl
    | cons c text ih =>
      rw [utf8, List.flatMap_cons, List.length_append, hone c (h c List.mem_cons_self),
        List.length_cons, Nat.add_comm, ← utf8,
        ih fun c hc => h c (List.mem_cons_of_mem _ hc)]
  exact htext _ fun c hc => mem_encodeBase64 hc

/-- The decoder recovers what was encoded. -/
theorem decodeBase64_encodeBase64 (data : Bytes) : decodeBase64 (encodeBase64 data) = .ok data := by
  have hlen : (utf8 (encodeBase64 data)).length % 4 = 0 := by
    rw [length_utf8_encodeBase64, length_encodeBase64, Nat.mul_mod_left]
  rw [decodeBase64, ensure_pos _ hlen]
  exact decodeBase64Chunks_encodeBase64 data

/-! ## Fingerprints -/

/-- All that dropping a character from the front forgets is how often it stood there. -/
theorem eq_replicate_append_dropWhile (c : Char) (text : List Char) :
    text = List.replicate (text.length - (text.dropWhile (· = c)).length) c ++
      text.dropWhile (· = c) := by
  induction text with
  | nil => rfl
  | cons head text ih =>
    have hle := (List.dropWhile_sublist (fun x => decide (x = c)) (l := text)).length_le
    by_cases hc : head = c
    · have hdrop : (head :: text).dropWhile (· = c) = text.dropWhile (· = c) := by simp [hc]
      rw [hdrop, List.length_cons, Nat.succ_sub hle, List.replicate_succ, List.cons_append, ← ih,
        hc]
    · have hdrop : (head :: text).dropWhile (· = c) = head :: text := by simp [hc]
      rw [hdrop, Nat.sub_self, List.replicate_zero, List.nil_append]

/-- Digests have encodings of one length, so the padding that is cut off can be put back. -/
theorem formatSha256Digest_injective : Function.Injective formatSha256Digest := by
  intro digest digest' h
  have htrimmed :=
    List.reverse_injective (String.ofList_injective ((String.append_right_inj _).mp h))
  have hlen : (encodeBase64 digest.1).reverse.length = (encodeBase64 digest'.1).reverse.length := by
    rw [List.length_reverse, List.length_reverse, length_encodeBase64, length_encodeBase64,
      digest.2, digest'.2]
  have hencoded : encodeBase64 digest.1 = encodeBase64 digest'.1 := by
    apply List.reverse_injective
    rw [eq_replicate_append_dropWhile '=' (encodeBase64 digest.1).reverse, hlen, htrimmed,
      ← eq_replicate_append_dropWhile]
  have hdata := decodeBase64_encodeBase64 digest.1
  rw [hencoded, decodeBase64_encodeBase64] at hdata
  exact Subtype.ext (Except.ok.inj hdata).symm

end Axsh

/-
# What the base64 decoder accepts

The decoder accepts exactly the texts of groups of four letters of which the last may end in
padding (`IsBase64`). Encoding what it returned gives back the text, except that the bits of
the last letter before a padding that belong to no byte are cleared (`Recodes`).
-/

import Axsh.Base64

set_option autoImplicit false

namespace Axsh

/-- The number of a letter in the alphabet. -/
def letterIndex (c : Char) : ℕ := base64Alphabet.idxOf c

/-- Groups of four letters, of which the last may end in one `=` or two. -/
inductive IsBase64 : Text → Prop
  | nil : IsBase64 []
  | two {a b : Char} (ha : a ∈ base64Alphabet) (hb : b ∈ base64Alphabet) : IsBase64 [a, b, '=', '=']
  | three {a b c : Char} (ha : a ∈ base64Alphabet) (hb : b ∈ base64Alphabet)
      (hc : c ∈ base64Alphabet) : IsBase64 [a, b, c, '=']
  | group {a b c d : Char} {text : Text} (ha : a ∈ base64Alphabet) (hb : b ∈ base64Alphabet)
      (hc : c ∈ base64Alphabet) (hd : d ∈ base64Alphabet) (htext : IsBase64 text) :
      IsBase64 (a :: b :: c :: d :: text)

/-- The second text is the first one, except for the low bits of the last letter before the
padding: 2 of its 6 before one `=`, 4 before two. -/
inductive Recodes : Text → Text → Prop
  | same {text : Text} (h : '=' ∉ text) : Recodes text text
  | one {front : Text} {c c' : Char} (hfront : '=' ∉ front) (hc : c ∈ base64Alphabet)
      (hc' : c' ∈ base64Alphabet) (hhigh : letterIndex c' / 4 = letterIndex c / 4) :
      Recodes (front ++ [c, '=']) (front ++ [c', '='])
  | two {front : Text} {c c' : Char} (hfront : '=' ∉ front) (hc : c ∈ base64Alphabet)
      (hc' : c' ∈ base64Alphabet) (hhigh : letterIndex c' / 16 = letterIndex c / 16) :
      Recodes (front ++ [c, '=', '=']) (front ++ [c', '=', '='])

/-! ## Letters -/

/-- A letter with the byte it is written as and the number that this decodes to. -/
structure Letter (c : Char) (byte n : UInt8) : Prop where
  char : c = base64Alphabet.getD n.toNat '='
  bytes : utf8 [c] = [byte]
  ascii : byte.toNat < 0x80
  lt : n.toNat < 64
  decodes : decodeChar byte = .ok n

theorem padding_notMem : '=' ∉ base64Alphabet := by decide

/-- The letter with a number. -/
theorem getD_mem {i : ℕ} (h : i < 64) : base64Alphabet.getD i '=' ∈ base64Alphabet := by
  have hlt : i < base64Alphabet.length := length_base64Alphabet.symm ▸ h
  rw [← List.getElem_eq_getD (h := hlt)]
  exact List.getElem_mem hlt

theorem letterIndex_getD {i : ℕ} (h : i < 64) : letterIndex (base64Alphabet.getD i '=') = i := by
  have hlt : i < base64Alphabet.length := length_base64Alphabet.symm ▸ h
  have hnodup : base64Alphabet.Nodup := by decide +kernel
  rw [letterIndex, ← List.getElem_eq_getD (h := hlt)]
  exact hnodup.idxOf_getElem i hlt

/-- The bytes that decode are those of the letters. -/
theorem decodeChar_byte : ∀ i < 256, ∀ n ∈ Except.toOption (decodeChar (UInt8.ofNat i)),
    n.toNat < 64 ∧ i < 0x80 ∧ utf8 [base64Alphabet.getD n.toNat '='] = [UInt8.ofNat i] := by
  decide +kernel

theorem exists_letter_of_decodeChar {byte n : UInt8} (h : decodeChar byte = .ok n) :
    ∃ c, Letter c byte n := by
  have hbyte := decodeChar_byte byte.toNat byte.toNat_lt n
  rw [UInt8.ofNat_toNat, h] at hbyte
  obtain ⟨hlt, hascii, hutf8⟩ := hbyte rfl
  exact ⟨_, rfl, hutf8, hascii, hlt, h⟩

theorem exists_letter_of_mem {c : Char} (h : c ∈ base64Alphabet) : ∃ byte n, Letter c byte n := by
  obtain ⟨i, hi, rfl⟩ := List.getElem_of_mem h
  have hi64 : i < 64 := length_base64Alphabet ▸ hi
  obtain ⟨-, -, hdecodes⟩ := decodeChar_alphabet i hi64
  obtain ⟨c, hc⟩ := exists_letter_of_decodeChar hdecodes
  have hchar := hc.char
  rw [UInt8.toNat_ofNat', Nat.mod_eq_of_lt (by omega), ← List.getElem_eq_getD (h := hi)] at hchar
  exact ⟨_, _, hchar ▸ hc⟩

/-- A text whose bytes begin with a character of ASCII begins with it. -/
theorem exists_cons_of_utf8 {c : Char} {byte : UInt8} (hascii : byte.toNat < 0x80)
    (hc : utf8 [c] = [byte]) {text : Text} {bytes : Bytes} (htext : utf8 text = byte :: bytes) :
    ∃ rest, text = c :: rest ∧ utf8 rest = bytes := by
  cases text with
  | nil => cases htext
  | cons d rest =>
    have hd : byte ∈ String.utf8EncodeChar d := by
      have hhead := congrArg List.head? htext
      have hne : String.utf8EncodeChar d ≠ [] := by simp
      rw [utf8, List.flatMap_cons, List.head?_append_of_ne_nil _ hne, List.head?_cons] at hhead
      exact List.mem_of_head? hhead
    have hc' : byte ∈ String.utf8EncodeChar c := by
      have hmem : byte ∈ utf8 [c] := hc ▸ List.mem_cons_self
      simpa [utf8] using hmem
    have hnat : d.toNat = c.toNat :=
      ((mem_utf8EncodeChar_iff hascii).mp hd).trans ((mem_utf8EncodeChar_iff hascii).mp hc').symm
    obtain rfl := Char.toNat_inj.mp hnat
    refine ⟨rest, rfl, ?_⟩
    have hsplit : utf8 [d] ++ utf8 rest = byte :: bytes := by rw [← utf8_append]; exact htext
    rw [hc] at hsplit
    exact (List.cons.inj hsplit).2

namespace Letter

variable {c : Char} {byte n : UInt8}

theorem mem (h : Letter c byte n) : c ∈ base64Alphabet := h.char ▸ getD_mem h.lt

theorem ne_padding (h : Letter c byte n) : '=' ≠ c := by
  rintro rfl
  exact padding_notMem h.mem

theorem byte_ne_padding (h : Letter c byte n) : byte ≠ 0x3d := by
  rintro rfl
  have hdecodes := h.decodes
  cases hdecodes

theorem index (h : Letter c byte n) : letterIndex c = n.toNat := h.char ▸ letterIndex_getD h.lt

theorem utf8_cons (h : Letter c byte n) (text : Text) : utf8 (c :: text) = byte :: utf8 text := by
  have hsplit : utf8 (c :: text) = utf8 [c] ++ utf8 text := (utf8_append [c] text)
  rw [hsplit, h.bytes, List.singleton_append]

theorem exists_cons (h : Letter c byte n) {text : Text} {bytes : Bytes}
    (htext : utf8 text = byte :: bytes) : ∃ rest, text = c :: rest ∧ utf8 rest = bytes :=
  exists_cons_of_utf8 h.ascii h.bytes htext

end Letter

theorem utf8_padding_cons (text : Text) : utf8 ('=' :: text) = 0x3d :: utf8 text := by
  have hpad : utf8 ['='] = [0x3d] := by decide
  have hsplit : utf8 ('=' :: text) = utf8 ['='] ++ utf8 text := utf8_append ['='] text
  rw [hsplit, hpad, List.singleton_append]

/-! ## One group -/

/-- What the decoder does with four bytes: two letters and two paddings or three letters and
one, behind which nothing may come, or four letters. -/
theorem decodeBase64Chunks_eq_ok {c0 c1 c2 c3 : UInt8} {rest data : Bytes}
    (h : decodeBase64Chunks (c0 :: c1 :: c2 :: c3 :: rest) = .ok data) :
    ∃ a b, decodeChar c0 = .ok a ∧ decodeChar c1 = .ok b ∧
      ((c2 = 0x3d ∧ c3 = 0x3d ∧ rest = [] ∧ data = [a <<< 2 ||| b >>> 4]) ∨
        (∃ c, decodeChar c2 = .ok c ∧ c3 = 0x3d ∧ rest = [] ∧
          data = [a <<< 2 ||| b >>> 4, b <<< 4 ||| c >>> 2]) ∨
        ∃ c d more, decodeChar c2 = .ok c ∧ decodeChar c3 = .ok d ∧
          decodeBase64Chunks rest = .ok more ∧
          data = (a <<< 2 ||| b >>> 4) :: (b <<< 4 ||| c >>> 2) :: (c <<< 6 ||| d) :: more) := by
  rw [decodeBase64Chunks] at h
  obtain ⟨a, ha, h⟩ := bind_eq_ok.mp h
  obtain ⟨b, hb, h⟩ := bind_eq_ok.mp h
  refine ⟨a, b, ha, hb, ?_⟩
  dsimp only at h
  split_ifs at h with hboth hbad hlast
  · obtain ⟨_, hrest, h⟩ := bind_eq_ok.mp h
    exact .inl ⟨hboth.1, hboth.2, ensure_eq_ok.mp hrest, (Except.ok.inj h).symm⟩
  · exact absurd h (bail_ne_ok _ _)
  · obtain ⟨_, hrest, h⟩ := bind_eq_ok.mp h
    obtain ⟨c, hc, h⟩ := bind_eq_ok.mp h
    exact .inr (.inl ⟨c, hc, hlast, ensure_eq_ok.mp hrest, (Except.ok.inj h).symm⟩)
  · obtain ⟨c, hc, h⟩ := bind_eq_ok.mp h
    obtain ⟨d, hd, h⟩ := bind_eq_ok.mp h
    obtain ⟨more, hmore, h⟩ := bind_eq_ok.mp h
    exact .inr (.inr ⟨c, d, more, hc, hd, hmore, (Except.ok.inj h).symm⟩)

section Bits

variable {a b c d : UInt8}

/-- The bytes that four numbers of six bits hold. -/
theorem toNat_group (hb : b.toNat < 64) (hc : c.toNat < 64) (hd : d.toNat < 64) :
    (a <<< 2 ||| b >>> 4).toNat = a.toNat % 64 * 4 + b.toNat / 16 ∧
      (b <<< 4 ||| c >>> 2).toNat = b.toNat % 16 * 16 + c.toNat / 4 ∧
      (c <<< 6 ||| d).toNat = c.toNat % 4 * 64 + d.toNat := by
  have hfirst := @toNat_recombine a.toNat b.toNat 2 4 hb (by decide) rfl
  have hsecond := @toNat_recombine b.toNat c.toNat 4 2 hc (by decide) rfl
  have hthird := @toNat_recombine c.toNat d.toNat 6 0 hd (by decide) rfl
  simp only [UInt8.ofNat_toNat] at hfirst hsecond hthird
  have hshift : d >>> UInt8.ofNat 0 = d := by simp
  rw [hshift, pow_zero, Nat.div_one] at hthird
  exact ⟨hfirst, hsecond, hthird⟩

/-- The four numbers of six bits that three bytes hold. -/
theorem base64Index_word (b0 b1 b2 : UInt8) :
    let word := b0.toUInt32 <<< 16 ||| b1.toUInt32 <<< 8 ||| b2.toUInt32
    base64Index word 18 = b0.toNat / 4 ∧ base64Index word 12 = b0.toNat % 4 * 16 + b1.toNat / 16 ∧
      base64Index word 6 = b1.toNat % 16 * 4 + b2.toNat / 64 ∧
      base64Index word 0 = b2.toNat % 64 := by
  intro word
  have hword : word.toNat = b0.toNat * 65536 + b1.toNat * 256 + b2.toNat := toNat_word b0 b1 b2
  have h0 := b0.toNat_lt
  have h1 := b1.toNat_lt
  have h2 := b2.toNat_lt
  obtain ⟨h18, h12, h6, hlast⟩ := base64Index_eq word
  rw [h18, h12, h6, hlast, hword]
  omega

/-- Where the index of a place of a word is the number of a letter, the letter stands there. -/
theorem base64Char_eq {x : Char} {byte n : UInt8} (h : Letter x byte n) {word shift : UInt32}
    (hindex : base64Index word shift = n.toNat) : base64Char word shift = x := by
  rw [h.char, ← hindex]
  rfl

/-- At any place of any word a letter stands. -/
theorem base64Char_mem (word shift : UInt32) : base64Char word shift ∈ base64Alphabet ∧
    letterIndex (base64Char word shift) = base64Index word shift :=
  ⟨getD_mem (base64Index_lt word shift), letterIndex_getD (base64Index_lt word shift)⟩

end Bits

section Group

variable {x0 x1 x2 x3 : Char} {c0 c1 c2 c3 a b c d : UInt8}

/-- Four letters are the encoding of the three bytes they hold. -/
theorem encodeBase64Chunk_three (h0 : Letter x0 c0 a) (h1 : Letter x1 c1 b) (h2 : Letter x2 c2 c)
    (h3 : Letter x3 c3 d) :
    encodeBase64Chunk (a <<< 2 ||| b >>> 4) (some (b <<< 4 ||| c >>> 2)) (some (c <<< 6 ||| d)) =
      [x0, x1, x2, x3] := by
  obtain ⟨hfirst, hsecond, hthird⟩ := toNat_group (a := a) h1.lt h2.lt h3.lt
  obtain ⟨h18, h12, h6, hlast⟩ :=
    base64Index_word (a <<< 2 ||| b >>> 4) (b <<< 4 ||| c >>> 2) (c <<< 6 ||| d)
  rw [hfirst] at h18
  rw [hfirst, hsecond] at h12
  rw [hsecond, hthird] at h6
  rw [hthird] at hlast
  have ha := h0.lt
  have hb := h1.lt
  have hc := h2.lt
  have hd := h3.lt
  simp only [encodeBase64Chunk, Option.getD_some, Option.isSome_some, if_true]
  rw [base64Char_eq h0 (h18.trans (by omega)), base64Char_eq h1 (h12.trans (by omega)),
    base64Char_eq h2 (h6.trans (by omega)), base64Char_eq h3 (hlast.trans (by omega))]

/-- Three letters are the encoding of the two bytes they hold, up to the two bits of the last
letter that are in neither. -/
theorem encodeBase64Chunk_two (h0 : Letter x0 c0 a) (h1 : Letter x1 c1 b) (h2 : Letter x2 c2 c) :
    ∃ x ∈ base64Alphabet, letterIndex x / 4 = letterIndex x2 / 4 ∧
      encodeBase64Chunk (a <<< 2 ||| b >>> 4) (some (b <<< 4 ||| c >>> 2)) none =
        [x0, x1, x, '='] := by
  obtain ⟨hfirst, hsecond, -⟩ := toNat_group (a := a) (d := 0) h1.lt h2.lt (by decide)
  obtain ⟨h18, h12, h6, -⟩ := base64Index_word (a <<< 2 ||| b >>> 4) (b <<< 4 ||| c >>> 2) 0
  rw [hfirst] at h18
  rw [hfirst, hsecond] at h12
  rw [hsecond, UInt8.toNat_zero] at h6
  have ha := h0.lt
  have hb := h1.lt
  have hc := h2.lt
  obtain ⟨hmem, hindex⟩ := base64Char_mem ((a <<< 2 ||| b >>> 4).toUInt32 <<< 16 |||
    (b <<< 4 ||| c >>> 2).toUInt32 <<< 8 ||| (0 : UInt8).toUInt32) 6
  refine ⟨_, hmem, ?_, ?_⟩
  · rw [hindex, h6, h2.index]
    omega
  · simp only [encodeBase64Chunk, Option.getD_some, Option.getD_none, Option.isSome_some, if_true]
    rw [base64Char_eq h0 (h18.trans (by omega)), base64Char_eq h1 (h12.trans (by omega))]
    rfl

/-- Two letters are the encoding of the byte they hold, up to the four bits of the second one
that are not in it. -/
theorem encodeBase64Chunk_one (h0 : Letter x0 c0 a) (h1 : Letter x1 c1 b) :
    ∃ x ∈ base64Alphabet, letterIndex x / 16 = letterIndex x1 / 16 ∧
      encodeBase64Chunk (a <<< 2 ||| b >>> 4) none none = [x0, x, '=', '='] := by
  obtain ⟨hfirst, -, -⟩ := toNat_group (a := a) (c := 0) (d := 0) h1.lt (by decide) (by decide)
  obtain ⟨h18, h12, -, -⟩ := base64Index_word (a <<< 2 ||| b >>> 4) 0 0
  rw [hfirst] at h18
  rw [hfirst, UInt8.toNat_zero] at h12
  have ha := h0.lt
  have hb := h1.lt
  obtain ⟨hmem, hindex⟩ := base64Char_mem ((a <<< 2 ||| b >>> 4).toUInt32 <<< 16 |||
    (0 : UInt8).toUInt32 <<< 8 ||| (0 : UInt8).toUInt32) 12
  refine ⟨_, hmem, ?_, ?_⟩
  · rw [hindex, h12, h1.index]
    omega
  · simp only [encodeBase64Chunk, Option.getD_none]
    rw [base64Char_eq h0 (h18.trans (by omega))]
    rfl

end Group

/-! ## The whole text -/

/-- A group of letters in front changes nothing. -/
theorem Recodes.group {text text' : Text} (h : Recodes text text') {front : Text}
    (hfront : '=' ∉ front) : Recodes (front ++ text) (front ++ text') := by
  have happend : ∀ {back : Text}, '=' ∉ back → '=' ∉ front ++ back := by
    intro back hback hmem
    rcases List.mem_append.mp hmem with hmem | hmem
    · exact hfront hmem
    · exact hback hmem
  cases h with
  | same h => exact .same (happend h)
  | one h hc hc' hhigh =>
    rw [← List.append_assoc, ← List.append_assoc]
    exact .one (happend h) hc hc' hhigh
  | two h hc hc' hhigh =>
    rw [← List.append_assoc, ← List.append_assoc]
    exact .two (happend h) hc hc' hhigh

/-- The text of bytes that decode is base64, and what they decode to is encoded as the text. -/
theorem isBase64_of_decode (bytes : Bytes) : ∀ {text : Text} {data : Bytes}, utf8 text = bytes →
    decodeBase64Chunks bytes = .ok data → IsBase64 text ∧ Recodes text (encodeBase64 data) := by
  induction bytes using decodeBase64Chunks.induct with
  | case1 =>
    intro text data htext hdata
    obtain rfl := Except.ok.inj hdata
    obtain rfl : text = [] := utf8_injective (htext.trans utf8_nil.symm)
    exact ⟨.nil, .same List.not_mem_nil⟩
  | case2 c0 c1 c2 c3 rest ih =>
    intro text data htext hdata
    obtain ⟨a, b, ha, hb, hcases⟩ := decodeBase64Chunks_eq_ok hdata
    obtain ⟨x0, h0⟩ := exists_letter_of_decodeChar ha
    obtain ⟨x1, h1⟩ := exists_letter_of_decodeChar hb
    obtain ⟨text1, rfl, htext1⟩ := h0.exists_cons htext
    obtain ⟨text2, rfl, htext2⟩ := h1.exists_cons htext1
    rcases hcases with ⟨rfl, rfl, rfl, rfl⟩ | ⟨c, hc, rfl, rfl, rfl⟩ |
      ⟨c, d, more, hc, hd, hmore, rfl⟩
    · obtain rfl : text2 = ['=', '='] := utf8_injective (htext2.trans (by decide))
      obtain ⟨x, hx, hhigh, hchunk⟩ := encodeBase64Chunk_one h0 h1
      refine ⟨.two h0.mem h1.mem, ?_⟩
      have hfront : '=' ∉ [x0] := by simpa using h0.ne_padding
      rw [encodeBase64, hchunk]
      exact Recodes.two hfront h1.mem hx hhigh
    · obtain ⟨x2, h2⟩ := exists_letter_of_decodeChar hc
      obtain ⟨text3, rfl, htext3⟩ := h2.exists_cons htext2
      obtain rfl : text3 = ['='] := utf8_injective (htext3.trans (by decide))
      obtain ⟨x, hx, hhigh, hchunk⟩ := encodeBase64Chunk_two h0 h1 h2
      refine ⟨.three h0.mem h1.mem h2.mem, ?_⟩
      have hfront : '=' ∉ [x0, x1] := by simpa using ⟨h0.ne_padding, h1.ne_padding⟩
      rw [encodeBase64, hchunk]
      exact Recodes.one hfront h2.mem hx hhigh
    · obtain ⟨x2, h2⟩ := exists_letter_of_decodeChar hc
      obtain ⟨x3, h3⟩ := exists_letter_of_decodeChar hd
      obtain ⟨text3, rfl, htext3⟩ := h2.exists_cons htext2
      obtain ⟨text4, rfl, htext4⟩ := h3.exists_cons htext3
      obtain ⟨hbase64, hrecodes⟩ := ih htext4 hmore
      refine ⟨.group h0.mem h1.mem h2.mem h3.mem hbase64, ?_⟩
      have hfront : '=' ∉ [x0, x1, x2, x3] := by
        simpa using ⟨h0.ne_padding, h1.ne_padding, h2.ne_padding, h3.ne_padding⟩
      rw [encodeBase64, encodeBase64Chunk_three h0 h1 h2 h3]
      exact hrecodes.group hfront
  | case3 bytes hnil hchunk =>
    intro text data _ hdata
    rw [decodeBase64Chunks] at hdata
    · cases hdata
    · exact hnil
    · exact hchunk

/-- Base64 decodes. -/
theorem IsBase64.decodes {text : Text} (h : IsBase64 text) :
    ∃ data, decodeBase64 text = .ok data := by
  have hchunks : (utf8 text).length % 4 = 0 ∧
      ∃ data, decodeBase64Chunks (utf8 text) = .ok data := by
    induction h with
    | nil => exact ⟨rfl, [], rfl⟩
    | two ha hb =>
      obtain ⟨c0, a, h0⟩ := exists_letter_of_mem ha
      obtain ⟨c1, b, h1⟩ := exists_letter_of_mem hb
      rw [h0.utf8_cons, h1.utf8_cons, utf8_padding_cons, utf8_padding_cons]
      refine ⟨by simp, [a <<< 2 ||| b >>> 4], ?_⟩
      simp [decodeBase64Chunks, h0.decodes, h1.decodes, ensure]
    | three ha hb hc =>
      obtain ⟨c0, a, h0⟩ := exists_letter_of_mem ha
      obtain ⟨c1, b, h1⟩ := exists_letter_of_mem hb
      obtain ⟨c2, c, h2⟩ := exists_letter_of_mem hc
      rw [h0.utf8_cons, h1.utf8_cons, h2.utf8_cons, utf8_padding_cons]
      refine ⟨by simp, [a <<< 2 ||| b >>> 4, b <<< 4 ||| c >>> 2], ?_⟩
      simp [decodeBase64Chunks, h0.decodes, h1.decodes, h2.decodes, h2.byte_ne_padding, ensure]
    | group ha hb hc hd _ ih =>
      obtain ⟨c0, a, h0⟩ := exists_letter_of_mem ha
      obtain ⟨c1, b, h1⟩ := exists_letter_of_mem hb
      obtain ⟨c2, c, h2⟩ := exists_letter_of_mem hc
      obtain ⟨c3, d, h3⟩ := exists_letter_of_mem hd
      obtain ⟨hlen, data, hdata⟩ := ih
      rw [h0.utf8_cons, h1.utf8_cons, h2.utf8_cons, h3.utf8_cons]
      refine ⟨by simp only [List.length_cons]; omega,
        (a <<< 2 ||| b >>> 4) :: (b <<< 4 ||| c >>> 2) :: (c <<< 6 ||| d) :: data, ?_⟩
      simp [decodeBase64Chunks, h0.decodes, h1.decodes, h2.decodes, h2.byte_ne_padding,
        h3.decodes, h3.byte_ne_padding, hdata]
  obtain ⟨hlen, data, hdata⟩ := hchunks
  exact ⟨data, by rw [decodeBase64, ensure_pos _ hlen]; exact hdata⟩

theorem decodeBase64Chunks_of_decodeBase64 {text : Text} {data : Bytes}
    (h : decodeBase64 text = .ok data) : decodeBase64Chunks (utf8 text) = .ok data := by
  obtain ⟨_, -, h⟩ := bind_eq_ok.mp h
  exact h

/-- Base64 has only letters and paddings. -/
theorem IsBase64.mem {text : Text} (h : IsBase64 text) {c : Char} (hc : c ∈ text) :
    c ∈ '=' :: base64Alphabet := by
  induction h with
  | nil => cases hc
  | two ha hb =>
    simp only [List.mem_cons, List.not_mem_nil, or_false] at hc
    rcases hc with rfl | rfl | rfl | rfl
    · exact List.mem_cons_of_mem _ ha
    · exact List.mem_cons_of_mem _ hb
    · exact List.mem_cons_self
    · exact List.mem_cons_self
  | three ha hb hc' =>
    simp only [List.mem_cons, List.not_mem_nil, or_false] at hc
    rcases hc with rfl | rfl | rfl | rfl
    · exact List.mem_cons_of_mem _ ha
    · exact List.mem_cons_of_mem _ hb
    · exact List.mem_cons_of_mem _ hc'
    · exact List.mem_cons_self
  | group ha hb hc' hd _ ih =>
    rw [List.mem_cons, List.mem_cons, List.mem_cons, List.mem_cons] at hc
    rcases hc with rfl | rfl | rfl | rfl | hc
    · exact List.mem_cons_of_mem _ ha
    · exact List.mem_cons_of_mem _ hb
    · exact List.mem_cons_of_mem _ hc'
    · exact List.mem_cons_of_mem _ hd
    · exact ih hc

/-- No white space stands in what decodes. -/
theorem isWhitespace_of_decodeBase64 {text : Text} {data : Bytes}
    (h : decodeBase64 text = .ok data) {c : Char} (hc : c ∈ text) : isWhitespace c = false := by
  have hbase64 := (isBase64_of_decode _ rfl (decodeBase64Chunks_of_decodeBase64 h)).1
  exact isWhitespace_of_mem (hbase64.mem hc)

/-- The codec is exact: decoding is the inverse of encoding, it accepts base64 only, and
encoding is its inverse up to the bits that a padding makes meaningless. -/
theorem base64_exact :
    (∀ data, decodeBase64 (encodeBase64 data) = .ok data) ∧
      ∀ text, ((∃ data, decodeBase64 text = .ok data) ↔ IsBase64 text) ∧
        ∀ data, decodeBase64 text = .ok data → Recodes text (encodeBase64 data) := by
  refine ⟨decodeBase64_encodeBase64, fun text => ⟨⟨?_, IsBase64.decodes⟩, ?_⟩⟩
  · rintro ⟨data, hdata⟩
    exact (isBase64_of_decode _ rfl (decodeBase64Chunks_of_decodeBase64 hdata)).1
  · intro data hdata
    exact (isBase64_of_decode _ rfl (decodeBase64Chunks_of_decodeBase64 hdata)).2

/-- The last letter before the padding need not be the one that the encoder writes. -/
example : decodeBase64 "Zh==".toList = .ok [0x66] ∧ encodeBase64 [0x66] = "Zg==".toList := by decide

end Axsh

/-
# Lossy decoding

`String::from_utf8_lossy`. The bytes are cut from the left into sequences, each of a first
byte and of as many of the continuation bytes it asks for as stand behind it; a sequence that
is complete is a character, any other is shown as U+FFFD.

What the first byte asks for is a list of ranges, since after some first bytes not every
continuation byte may come next. All of them are continuation bytes, which ask for nothing
when they stand first, so the sequences are the tokens of a scanner.
-/

import Axsh.Text
import Axsh.Lib.Scanner

set_option autoImplicit false

namespace Axsh

/-- A range of continuation bytes, by their values. -/
structure Continuation where
  low : ℕ
  high : ℕ
  low_ge : 0x80 ≤ low
  high_le : high ≤ 0xbf

namespace Continuation

/-- Any continuation byte. -/
def any : Continuation := ⟨0x80, 0xbf, by decide, by decide⟩

/-- The byte is in the range. -/
def Admits (c : Continuation) (byte : UInt8) : Prop := c.low ≤ byte.toNat ∧ byte.toNat ≤ c.high

instance (c : Continuation) (byte : UInt8) : Decidable (c.Admits byte) :=
  inferInstanceAs (Decidable (_ ∧ _))

end Continuation

open Continuation

/-- The continuation bytes that a first byte asks for: none, for a byte of ASCII and for a
byte that begins no character. -/
def continuations (first : UInt8) : List Continuation :=
  let n := first.toNat
  if n < 0xc2 then []
  else if n < 0xe0 then [any]
  else if n = 0xe0 then [⟨0xa0, 0xbf, by decide, by decide⟩, any]
  else if n = 0xed then [⟨0x80, 0x9f, by decide, by decide⟩, any]
  else if n < 0xf0 then [any, any]
  else if n = 0xf0 then [⟨0x90, 0xbf, by decide, by decide⟩, any, any]
  else if n < 0xf4 then [any, any, any]
  else if n = 0xf4 then [⟨0x80, 0x8f, by decide, by decide⟩, any, any]
  else []

/-- A byte below 0xc2 asks for nothing. -/
theorem continuations_of_lt {first : UInt8} (h : first.toNat < 0xc2) : continuations first = [] :=
  if_pos h

/-- The sequences that `Utf8Chunks` distinguishes. The state is what is still asked for. -/
def utf8Chunks : Scanner UInt8 (List Continuation) where
  start := continuations
  step
    | [], _ => none
    | c :: asked, byte => if c.Admits byte then some asked else none
  solitary := by
    intro asked asked' byte h b
    cases asked with
    | nil => cases h
    | cons c asked =>
      dsimp only at h
      split_ifs at h with hadmits
      have hlt : byte.toNat < 0xc2 := by
        have := hadmits.2
        have := c.high_le
        omega
      simp only [continuations_of_lt hlt]

/-- The character of a sequence. -/
def lossyChar : Bytes → Char
  | [first] => if first.toNat < 0x80 then Char.ofNat first.toNat else '\uFFFD'
  | [first, second] =>
    if first.toNat < 0xe0 then
      Char.ofNat (first.toNat % 0x20 * 0x40 + second.toNat % 0x40)
    else '\uFFFD'
  | [first, second, third] =>
    if first.toNat < 0xf0 then
      Char.ofNat ((first.toNat % 0x10 * 0x40 + second.toNat % 0x40) * 0x40 + third.toNat % 0x40)
    else '\uFFFD'
  | [first, second, third, fourth] =>
    Char.ofNat (((first.toNat % 0x08 * 0x40 + second.toNat % 0x40) * 0x40 + third.toNat % 0x40) *
      0x40 + fourth.toNat % 0x40)
  | _ => '\uFFFD'

/-- `String::from_utf8_lossy`. -/
def fromUtf8Lossy (bytes : Bytes) : Text := (utf8Chunks.tokens bytes).map lossyChar

/-! ## Well-formed bytes -/

/-- What a sequence asks for is its own, and the next one begins behind it. -/
theorem cut_utf8Chunks {asked : List Continuation} {bytes : Bytes}
    (h : List.Forall₂ Admits asked bytes) (rest : Bytes) :
    utf8Chunks.cut asked (bytes ++ rest) = (bytes, utf8Chunks.tokens rest) := by
  induction h with
  | nil =>
    cases rest with
    | nil => rfl
    | cons byte rest => exact Scanner.cut_rejected rfl rest
  | cons hadmits _ ih =>
    rw [List.cons_append, Scanner.cut_accepted (if_pos hadmits), ih]

section Sequence

variable {first second third fourth : UInt8}

/-- A sequence of two bytes. -/
theorem admits_two (hfirst : 0xc2 ≤ first.toNat ∧ first.toNat < 0xe0)
    (hsecond : any.Admits second) :
    List.Forall₂ Admits (continuations first) [second] := by
  have hasked : continuations first = [any] := by
    simp only [continuations, hfirst.1.not_gt, hfirst.2, if_true, if_false]
  rw [hasked]
  exact .cons hsecond .nil

/-- A sequence of three bytes. The second one is not too low for so many bytes, and leaves out
the surrogates. -/
theorem admits_three (hfirst : 0xe0 ≤ first.toNat ∧ first.toNat < 0xf0)
    (hsecond : any.Admits second)
    (hthird : any.Admits third) (hlow : first.toNat = 0xe0 → 0xa0 ≤ second.toNat)
    (hsurrogate : first.toNat = 0xed → second.toNat ≤ 0x9f) :
    List.Forall₂ Admits (continuations first) [second, third] := by
  simp only [continuations, (show ¬ first.toNat < 0xc2 by omega), hfirst.1.not_gt, hfirst.2,
    if_true, if_false]
  split_ifs with he0 hed
  · exact .cons ⟨hlow he0, hsecond.2⟩ (.cons hthird .nil)
  · exact .cons ⟨hsecond.1, hsurrogate hed⟩ (.cons hthird .nil)
  · exact .cons hsecond (.cons hthird .nil)

/-- A sequence of four bytes. The second one is not too low for so many bytes, nor above the
last character. -/
theorem admits_four (hfirst : 0xf0 ≤ first.toNat ∧ first.toNat ≤ 0xf4) (hsecond : any.Admits second)
    (hthird : any.Admits third) (hfourth : any.Admits fourth)
    (hlow : first.toNat = 0xf0 → 0x90 ≤ second.toNat)
    (hhigh : first.toNat = 0xf4 → second.toNat ≤ 0x8f) :
    List.Forall₂ Admits (continuations first) [second, third, fourth] := by
  simp only [continuations, (show ¬ first.toNat < 0xc2 by omega),
    (show ¬ first.toNat < 0xe0 by omega), (show first.toNat ≠ 0xe0 by omega),
    (show first.toNat ≠ 0xed by omega), hfirst.1.not_gt, if_false]
  split_ifs with hf0 hlt hf4
  · exact .cons ⟨hlow hf0, hsecond.2⟩ (.cons hthird (.cons hfourth .nil))
  · exact .cons hsecond (.cons hthird (.cons hfourth .nil))
  · exact .cons ⟨hsecond.1, hhigh hf4⟩ (.cons hthird (.cons hfourth .nil))
  · omega

/-- Six bits above 0x80 are a continuation byte. -/
theorem any_admits_ofNat (n : ℕ) : any.Admits (UInt8.ofNat (n % 64 + 0x80)) := by
  rw [Admits, UInt8.toNat_ofNat']
  simp only [any]
  omega

end Sequence

/-- The bytes of a character are one sequence, which is shown as the character. -/
theorem utf8EncodeChar_eq (c : Char) : ∃ first rest, String.utf8EncodeChar c = first :: rest ∧
    List.Forall₂ Admits (continuations first) rest ∧ lossyChar (first :: rest) = c := by
  have hval : c.val.toNat = c.toNat := rfl
  have hvalid : c.toNat < 0xd800 ∨ 0xdfff < c.toNat ∧ c.toNat < 0x110000 := c.valid
  have hself : ∀ n, n = c.toNat → Char.ofNat n = c := by
    rintro n rfl
    exact Char.ofNat_toNat c
  simp only [String.utf8EncodeChar, hval]
  split_ifs with hone htwo hthree
  · refine ⟨_, _, rfl, ?_, ?_⟩
    · rw [continuations_of_lt (by rw [UInt8.toNat_ofNat']; omega)]
      exact .nil
    · rw [lossyChar, UInt8.toNat_ofNat', if_pos (by omega)]
      exact hself _ (by omega)
  · refine ⟨_, _, rfl, admits_two ?_ (any_admits_ofNat _), ?_⟩
    · rw [UInt8.toNat_ofNat']
      omega
    · simp only [lossyChar, UInt8.toNat_ofNat']
      rw [if_pos (by omega)]
      exact hself _ (by omega)
  · refine ⟨_, _, rfl, admits_three ?_ (any_admits_ofNat _) (any_admits_ofNat _) ?_ ?_, ?_⟩
    · rw [UInt8.toNat_ofNat']
      omega
    · rw [UInt8.toNat_ofNat', UInt8.toNat_ofNat']
      omega
    · rw [UInt8.toNat_ofNat', UInt8.toNat_ofNat']
      omega
    · simp only [lossyChar, UInt8.toNat_ofNat']
      rw [if_pos (by omega)]
      exact hself _ (by omega)
  · refine ⟨_, _, rfl, admits_four ?_ (any_admits_ofNat _) (any_admits_ofNat _) (any_admits_ofNat _)
      ?_ ?_, ?_⟩
    · rw [UInt8.toNat_ofNat']
      omega
    · rw [UInt8.toNat_ofNat', UInt8.toNat_ofNat']
      omega
    · rw [UInt8.toNat_ofNat', UInt8.toNat_ofNat']
      omega
    · simp only [lossyChar, UInt8.toNat_ofNat']
      exact hself _ (by omega)

/-- The sequences of the bytes of a string are its characters. -/
theorem tokens_utf8 (text : Text) :
    utf8Chunks.tokens (utf8 text) = text.map String.utf8EncodeChar := by
  induction text with
  | nil => rfl
  | cons c text ih =>
    obtain ⟨first, rest, hbytes, hadmits, -⟩ := utf8EncodeChar_eq c
    have hutf8 : utf8 (c :: text) = first :: (rest ++ utf8 text) := by
      rw [utf8, List.flatMap_cons, hbytes]
      rfl
    have hcut : utf8Chunks.cut (utf8Chunks.start first) (rest ++ utf8 text) =
        (rest, utf8Chunks.tokens (utf8 text)) := cut_utf8Chunks hadmits (utf8 text)
    rw [hutf8, Scanner.tokens_cons, hcut, ih, List.map_cons, hbytes]

/-- The bytes of a string decode to the string. -/
@[simp] theorem fromUtf8Lossy_utf8 (text : Text) : fromUtf8Lossy (utf8 text) = text := by
  rw [fromUtf8Lossy, tokens_utf8, List.map_map]
  conv_rhs => rw [← List.map_id text]
  apply List.map_congr_left
  intro c _
  obtain ⟨first, rest, hbytes, -, hchar⟩ := utf8EncodeChar_eq c
  rw [Function.comp_apply, hbytes, hchar, id_eq]

/-- A lone first byte, a surrogate of which no byte goes on, and a sequence that is cut off. -/
example : fromUtf8Lossy [0xc3, 0x61, 0xed, 0xa0, 0x80, 0xe2, 0x82] =
    ['\uFFFD', 'a', '\uFFFD', '\uFFFD', '\uFFFD', '\uFFFD'] := by decide

end Axsh

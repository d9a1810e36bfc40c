/-
# Text

The parts of `str` the program works with: a string as its characters, its bytes
in UTF-8, and the operations on it that the text files and the command lines go
through (`lines`, `trim`, `split_once`).
-/

import Axsh.Basic
import Axsh.Lib.Lines
import Mathlib.Data.List.DropRight

set_option autoImplicit false

namespace Axsh

/-- A string, `str`, as its characters. -/
abbrev Text := List Char

/-! ## UTF-8 -/

/-- `str::as_bytes`. -/
def utf8 (text : Text) : Bytes := text.flatMap String.utf8EncodeChar

/-- `String::from_utf8`. -/
def fromUtf8? (bytes : Bytes) : Option Text := bytes.toByteArray.utf8Decode?.map Array.toList

@[simp] theorem utf8_nil : utf8 [] = [] := rfl

@[simp] theorem utf8_append (front back : Text) : utf8 (front ++ back) = utf8 front ++ utf8 back :=
  List.flatMap_append ..

theorem utf8_newline : utf8 ['\n'] = [0x0a] := by decide

theorem toByteArray_utf8 (text : Text) : (utf8 text).toByteArray = text.utf8Encode := rfl

/-- The bytes of a string decode to the string. -/
@[simp] theorem fromUtf8?_utf8 (text : Text) : fromUtf8? (utf8 text) = some text := by
  simp [fromUtf8?, toByteArray_utf8]

theorem utf8_injective : Function.Injective utf8 := by
  intro first second h
  have hdecode := congrArg fromUtf8? h
  rw [fromUtf8?_utf8, fromUtf8?_utf8] at hdecode
  exact Option.some.inj hdecode

/-- Only the bytes of a string decode to it. -/
theorem fromUtf8?_eq_some_iff {bytes : Bytes} {text : Text} :
    fromUtf8? bytes = some text ↔ bytes = utf8 text := by
  constructor
  · intro h
    obtain ⟨chars, hchars, rfl⟩ := Option.map_eq_some_iff.mp h
    have hencode : chars.toList.utf8Encode = bytes.toByteArray := by
      have := ByteArray.utf8Encode_get_utf8Decode? (b := bytes.toByteArray)
        (h := by simp [hchars])
      simpa [hchars] using this
    have hdata := congrArg (fun array => array.data.toList) hencode
    simpa [utf8, List.utf8Encode] using hdata.symm
  · rintro rfl
    exact fromUtf8?_utf8 text

/-- The bytes of a character above ASCII are all above ASCII. -/
theorem mem_utf8EncodeChar_iff {c : Char} {byte : UInt8} (hbyte : byte.toNat < 0x80) :
    byte ∈ String.utf8EncodeChar c ↔ c.toNat = byte.toNat := by
  have hval : c.val.toNat = c.toNat := rfl
  simp only [String.utf8EncodeChar, hval]
  split_ifs <;> simp [← UInt8.toNat_inj] <;> omega

/-- A string has a newline exactly when its bytes do. -/
theorem newline_mem_utf8 {text : Text} : 0x0a ∈ utf8 text ↔ '\n' ∈ text := by
  rw [utf8, List.mem_flatMap]
  constructor
  · rintro ⟨c, hc, hmem⟩
    have hnat : c.toNat = '\n'.toNat := (mem_utf8EncodeChar_iff (by decide)).mp hmem
    rwa [← Char.toNat_inj.mp hnat]
  · intro h
    exact ⟨'\n', h, by decide⟩

/-- A string ends with a newline exactly when its bytes do. -/
theorem getLast?_utf8_eq_newline_iff {text : Text} :
    (utf8 text).getLast? = some 0x0a ↔ text.getLast? = some '\n' := by
  rcases List.eq_nil_or_concat text with rfl | ⟨text, c, rfl⟩
  · simp
  rw [List.concat_eq_append, utf8_append, List.getLast?_concat]
  have hne : utf8 [c] ≠ [] := by simp [utf8]
  rw [List.getLast?_append_of_ne_nil _ hne]
  constructor
  · intro h
    have hmem : (0x0a : UInt8) ∈ utf8 [c] := List.mem_of_getLast? h
    simpa [eq_comm] using newline_mem_utf8.mp hmem
  · intro h
    obtain rfl := Option.some.inj h
    decide

/-! ## White space and lines -/

/-- `char::is_whitespace`, the Unicode property `White_Space`. -/
def isWhitespace (c : Char) : Bool :=
  (0x09 ≤ c.toNat && c.toNat ≤ 0x0d) || c.toNat == 0x20 || c.toNat == 0x85 || c.toNat == 0xa0 ||
    c.toNat == 0x1680 || (0x2000 ≤ c.toNat && c.toNat ≤ 0x200a) || c.toNat == 0x2028 ||
    c.toNat == 0x2029 || c.toNat == 0x202f || c.toNat == 0x205f || c.toNat == 0x3000

/-- `str::trim`. -/
def trim (text : Text) : Text := (text.rdropWhile isWhitespace).dropWhile isWhitespace

/-- `str::strip_suffix('\r')`, or the string itself. -/
def stripCr (line : Text) : Text := if line.getLast? = some '\r' then line.dropLast else line

/-- `str::lines`: the terminated lines, each without a `\r` before its `\n`, and
the unterminated rest, if there is one, as it is. -/
def lines (text : Text) : List Text :=
  let cut := Lines.split '\n' text
  cut.1.map stripCr ++ if cut.2 = [] then [] else [cut.2]

/-- `str::split_once`. -/
def splitOnce (sep : Char) (text : Text) : Option (Text × Text) :=
  if sep ∈ text then some (text.takeWhile (· ≠ sep), (text.dropWhile (· ≠ sep)).tail) else none

/-- `str::split_whitespace`: the stretches between white space that are not empty. -/
def splitWhitespace (text : Text) : List Text := (text.splitOnP isWhitespace).filter (· ≠ [])

/-- A word in front of white space is the first stretch. -/
theorem splitWhitespace_append {front : Text} (hne : front ≠ [])
    (hfront : ∀ c ∈ front, isWhitespace c = false) {sep : Char} (hsep : isWhitespace sep = true)
    (back : Text) : splitWhitespace (front ++ sep :: back) = front :: splitWhitespace back := by
  rw [splitWhitespace, List.splitOnP_append_cons_of_forall_mem hfront sep hsep]
  exact List.filter_cons_of_pos (decide_eq_true hne)

/-- A word alone is the only one. -/
theorem splitWhitespace_word {text : Text} (hne : text ≠ [])
    (htext : ∀ c ∈ text, isWhitespace c = false) : splitWhitespace text = [text] := by
  rw [splitWhitespace, List.splitOnP_eq_singleton htext]
  exact List.filter_cons_of_pos (decide_eq_true hne)

/-- Trimming takes the `\r` of a line too. -/
@[simp] theorem trim_stripCr (line : Text) : trim (stripCr line) = trim line := by
  unfold stripCr
  split_ifs with h
  · obtain ⟨front, rfl⟩ := List.getLast?_eq_some_iff.mp h
    rw [List.dropLast_concat, trim, trim, List.rdropWhile_concat_pos _ _ _ (by decide)]
  · rfl

/-- A string is its own trimmed form when white space stands at neither end. -/
theorem trim_eq_self {text : Text} (hhead : ∀ c ∈ text.head?, isWhitespace c = false)
    (hlast : ∀ c ∈ text.getLast?, isWhitespace c = false) : trim text = text := by
  have hright : text.rdropWhile isWhitespace = text := by
    rw [List.rdropWhile_eq_self_iff]
    intro hne
    simpa using hlast _ (List.getLast?_eq_some_getLast hne)
  rw [trim, hright]
  cases text with
  | nil => rfl
  | cons c text => exact List.dropWhile_cons_of_neg (by simpa using hhead c)

/-- A separator that is not in the front splits after the front. -/
theorem splitOnce_append {sep : Char} {front : Text} (h : sep ∉ front) (back : Text) :
    splitOnce sep (front ++ sep :: back) = some (front, back) := by
  obtain ⟨htake, hdrop⟩ := Lines.takeWhile_dropWhile_append h back
  rw [splitOnce, if_pos (by simp), htake, hdrop]

/-- A split is at the first separator. -/
theorem eq_of_splitOnce {sep : Char} {text front back : Text}
    (h : splitOnce sep text = some (front, back)) : text = front ++ sep :: back ∧ sep ∉ front := by
  by_cases hmem : sep ∈ text
  · obtain ⟨init, rest, rfl, hinit⟩ := List.eq_append_cons_of_mem hmem
    rw [splitOnce_append hinit] at h
    obtain ⟨rfl, rfl⟩ := Prod.mk.inj (Option.some.inj h)
    exact ⟨rfl, hinit⟩
  · rw [splitOnce, if_neg hmem] at h
    cases h

theorem splitOnce_of_notMem {sep : Char} {text : Text} (h : sep ∉ text) :
    splitOnce sep text = none := if_neg h

/-- The lines of a text and of a further line that is not empty, when the text
ends its last line. -/
theorem lines_append {text line : Text} (htext : (Lines.split '\n' text).2 = [])
    (hline : '\n' ∉ line) (hne : line ≠ []) : lines (text ++ line) = lines text ++ [line] := by
  simp only [lines, Lines.split_append_of_rest_eq_nil htext, Lines.split_of_notMem hline, htext,
    hne, if_true, if_false, List.append_nil]

/-- `\r\n`, a lone `\r`, and a last line without `\n`. -/
example : lines "a\r\nb\rc\n\nd\r".toList =
    ["a".toList, "b\rc".toList, [], "d\r".toList] := by decide

end Axsh

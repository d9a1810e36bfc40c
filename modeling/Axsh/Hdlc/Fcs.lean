/-
# What the frame check sequence detects

The check register takes in the bits of a payload, least significant first within a
byte, and the check sequence is its complement. Taking in the check sequence as well
leaves the register in one state for every payload (`run_checked`). The register is a
feedback shift register of sixteen bits whose feedback word has its highest bit set, so
bytes that differ from a payload with its check sequence only within sixteen bits in a
row leave it in another state, and `decode` refuses them.
-/

import Axsh.Lib.ShiftRegister
import Axsh.WithoutPanic

set_option autoImplicit false

namespace Axsh.Hdlc

open ShiftRegister (shift run word)

/-- The bits of a byte, least significant first. -/
def bitsOf (byte : UInt8) : List Bool := (List.range 8).map byte.toBitVec.getLsbD

/-- The bits of some bytes, in the order in which the check register takes them in. -/
def bits (bytes : Bytes) : List Bool := bytes.flatMap bitsOf

@[simp] theorem length_bitsOf (byte : UInt8) : (bitsOf byte).length = 8 := by
  rw [bitsOf, List.length_map, List.length_range]

/-- The bits of a byte, by their place; there are no others. -/
theorem getD_bitsOf (byte : UInt8) (i : ℕ) : (bitsOf byte).getD i false = byte.toNat.testBit i := by
  rw [bitsOf, ← UInt8.toNat_toBitVec, BitVec.testBit_toNat]
  by_cases hi : i < 8
  · simp [hi]
  · have hout : byte.toBitVec.getLsbD i = false := BitVec.getLsbD_of_ge _ _ (not_lt.mp hi)
    simp [hi, hout]

theorem bits_append (front back : Bytes) : bits (front ++ back) = bits front ++ bits back :=
  List.flatMap_append ..

theorem bits_cons (byte : UInt8) (bytes : Bytes) :
    bits (byte :: bytes) = bitsOf byte ++ bits bytes :=
  rfl

theorem length_bits (bytes : Bytes) : (bits bytes).length = 8 * bytes.length := by
  induction bytes with
  | nil => rfl
  | cons byte bytes ih =>
    rw [bits_cons, List.length_append, length_bitsOf, ih, List.length_cons]
    omega

/-! ## The check register -/

/-- A round of the code is a move of the register. -/
theorem toBitVec_updateFcsBit (fcs : UInt16) :
    (updateFcsBit fcs).toBitVec = shift fcsPoly.toBitVec fcs.toBitVec := by
  have hlow : fcs &&& 1 ≠ 0 ↔ fcs.toBitVec.getLsbD 0 = true := by
    have hone : (fcs &&& 1).toBitVec = (BitVec.ofBool (fcs.toBitVec.getLsbD 0)).setWidth 16 := by
      rw [UInt16.toBitVec_and]
      exact BitVec.and_one_eq_setWidth_ofBool_getLsbD
    rw [ne_eq, ← UInt16.toBitVec_inj, hone]
    cases fcs.toBitVec.getLsbD 0 <;> decide
  unfold updateFcsBit shift
  by_cases h : fcs.toBitVec.getLsbD 0 = true
  · rw [if_pos h, if_pos (hlow.mpr h)]
    simp
  · rw [if_neg h, if_neg (hlow.not.mpr h)]
    simp

theorem toBitVec_iterate_updateFcsBit (n : ℕ) (fcs : UInt16) :
    (updateFcsBit^[n] fcs).toBitVec = (shift fcsPoly.toBitVec)^[n] fcs.toBitVec := by
  induction n generalizing fcs with
  | zero => rfl
  | succ n ih =>
    rw [Function.iterate_succ_apply, ih, toBitVec_updateFcsBit, Function.iterate_succ_apply]

/-- The bits of a byte are those of the word it is widened to. -/
theorem word_bitsOf (byte : UInt8) : (word (bitsOf byte) : BitVec 16) = byte.toUInt16.toBitVec := by
  apply BitVec.eq_of_getLsbD_eq
  intro i hi
  rw [ShiftRegister.getLsbD_word, getD_bitsOf, UInt8.toBitVec_toUInt16, BitVec.getLsbD_setWidth,
    ← BitVec.testBit_toNat, UInt8.toNat_toBitVec]

/-- Feeding a byte is taking in its bits. -/
theorem toBitVec_updateFcs (fcs : UInt16) (byte : UInt8) :
    (updateFcs fcs byte).toBitVec = run fcsPoly.toBitVec fcs.toBitVec (bitsOf byte) := by
  rw [ShiftRegister.run_eq (by simp), length_bitsOf, word_bitsOf, updateFcs,
    toBitVec_iterate_updateFcsBit, UInt16.toBitVec_xor]

theorem toBitVec_foldl_updateFcs (fcs : UInt16) (bytes : Bytes) :
    (bytes.foldl updateFcs fcs).toBitVec = run fcsPoly.toBitVec fcs.toBitVec (bits bytes) := by
  induction bytes generalizing fcs with
  | nil => rfl
  | cons byte bytes ih =>
    rw [List.foldl_cons, ih, toBitVec_updateFcs, bits_cons, ShiftRegister.run_append]

/-- The two bytes of a check sequence hold its bits in order. -/
theorem word_bits_u16ToLeBytes (n : UInt16) :
    (word (bits (u16ToLeBytes n)) : BitVec 16) = n.toBitVec := by
  apply BitVec.eq_of_getLsbD_eq
  intro i hi
  have hbits : bits (u16ToLeBytes n) =
      bitsOf (UInt8.ofNat n.toNat) ++ bitsOf (UInt8.ofNat (n.toNat / 2 ^ 8)) := rfl
  rw [ShiftRegister.getLsbD_word, hbits, decide_eq_true hi, Bool.true_and, ← BitVec.testBit_toNat,
    UInt16.toNat_toBitVec]
  -- The first eight bits are those of the low byte, the others those of the high one.
  by_cases hlow : i < 8
  · rw [List.getD_append _ _ _ _ (by simpa using hlow), getD_bitsOf, UInt8.toNat_ofNat',
      Nat.testBit_mod_two_pow, decide_eq_true hlow, Bool.true_and]
  · rw [List.getD_append_right _ _ _ _ (by simpa using hlow), length_bitsOf, getD_bitsOf,
      UInt8.toNat_ofNat', Nat.testBit_mod_two_pow, decide_eq_true (by omega), Bool.true_and,
      Nat.testBit_div_two_pow, Nat.sub_add_cancel (not_lt.mp hlow)]

/-- A payload and its check sequence, the two bytes that `encode` puts behind it. -/
def checked (payload : Bytes) : Bytes := payload ++ u16ToLeBytes (frameFcs payload)

/-- The register after a payload and its check sequence is the same for every payload. -/
theorem run_checked (payload : Bytes) :
    run fcsPoly.toBitVec initialFcs.toBitVec (bits (checked payload)) =
      (shift fcsPoly.toBitVec)^[16] (BitVec.allOnes 16) := by
  have hlength : (bits (u16ToLeBytes (frameFcs payload))).length = 16 := by
    rw [length_bits, length_u16ToLeBytes]
  -- The check sequence is the complement of the register, so adding it sets every bit.
  have hones : (payload.foldl updateFcs initialFcs).toBitVec ^^^ (frameFcs payload).toBitVec =
      BitVec.allOnes 16 := by
    rw [frameFcs, UInt16.toBitVec_not]
    apply BitVec.eq_of_getLsbD_eq
    intro i hi
    rw [BitVec.getLsbD_xor, BitVec.getLsbD_not, BitVec.getLsbD_allOnes, decide_eq_true hi,
      Bool.true_and, Bool.xor_not_self]
  rw [checked, bits_append, ShiftRegister.run_append,
    ← toBitVec_foldl_updateFcs initialFcs payload, ShiftRegister.run_eq hlength.le, hlength,
    word_bits_u16ToLeBytes, hones]

/-! ## Bursts -/

/-- `received` is `sent` with a burst of errors: some bit is wrong, and the wrong bits
lie within sixteen in a row. -/
structure Burst (sent received : Bytes) : Prop where
  length : received.length = sent.length
  wrong : ∃ i : ℕ, (bits received)[i]? ≠ (bits sent)[i]?
  within : ∃ start, ∀ i : ℕ, (bits received)[i]? ≠ (bits sent)[i]? → start ≤ i ∧ i < start + 16

/-- Around the window of a burst the bits agree. -/
theorem Burst.exists_window {sent received : Bytes} (h : Burst sent received) :
    ∃ front first second back, bits received = front ++ (first ++ back) ∧
      bits sent = front ++ (second ++ back) ∧ first.length = second.length ∧ first.length ≤ 16 ∧
      first ≠ second := by
  obtain ⟨start, hwithin⟩ := h.within
  have hagree : ∀ i, i < start ∨ start + 16 ≤ i → (bits received)[i]? = (bits sent)[i]? := by
    intro i hi
    by_contra hne
    have := hwithin i hne
    omega
  have hlength : (bits received).length = (bits sent).length := by
    rw [length_bits, length_bits, h.length]
  have hcut (l : List Bool) :
      l = l.take start ++ ((l.drop start).take 16 ++ l.drop (start + 16)) := by
    rw [← List.drop_drop, List.take_append_drop, List.take_append_drop]
  have hfront : (bits received).take start = (bits sent).take start := by
    apply List.ext_getElem?
    intro i
    simp only [List.getElem?_take]
    split_ifs with hi
    · exact hagree i (.inl hi)
    · rfl
  have hback : (bits received).drop (start + 16) = (bits sent).drop (start + 16) := by
    apply List.ext_getElem?
    intro i
    rw [List.getElem?_drop, List.getElem?_drop]
    exact hagree _ (.inr (by omega))
  refine ⟨_, _, ((bits sent).drop start).take 16, _, hcut (bits received), ?_, ?_, ?_, ?_⟩
  · rw [hfront, hback]
    exact hcut (bits sent)
  · simp [hlength]
  · exact List.length_take_le ..
  · intro hwindow
    obtain ⟨i, hi⟩ := h.wrong
    apply hi
    rw [hcut (bits received), hfront, hwindow, hback, ← hcut]

/-- A burst does not leave a payload with its own check sequence. -/
theorem Burst.ne_checked {payload received : Bytes} (h : Burst (checked payload) received)
    (other : Bytes) : received ≠ checked other := by
  rintro rfl
  obtain ⟨front, first, second, back, hreceived, hsent, hlength, hfit, hne⟩ := h.exists_window
  have hrun := (run_checked other).trans (run_checked payload).symm
  rw [hreceived, hsent] at hrun
  have hfeedback : fcsPoly.toBitVec.msb = true := by decide
  exact hne (ShiftRegister.eq_of_run_eq hfeedback hlength hfit hrun)

/-- A frame whose bytes between the flags unstuff to a payload and its check sequence
with a burst of errors is refused. -/
theorem decode_burst (payload received frame : Bytes) (hburst : Burst (checked payload) received)
    (hframe : unescapeLoop [] false frame.tail.dropLast = .ok (received, false)) :
    ∃ kind message, decode frame = .error (.error kind message) := by
  have hpanic := decode_noPanic frame
  cases hdecode : decode frame with
  | error e =>
    cases e with
    | error kind message => exact ⟨kind, message, rfl⟩
    | panic message => exact absurd hdecode (hpanic message)
  | ok other =>
    -- What is accepted unstuffs to a payload with its own check sequence.
    obtain ⟨-, interior, rfl, hscan⟩ := (decode_eq_ok_iff _ _).mp hdecode
    have hinterior : (flag :: (interior ++ [flag])).tail.dropLast = interior :=
      List.dropLast_concat
    rw [hinterior, unescapeLoop_eq, hscan] at hframe
    obtain ⟨hreceived, -⟩ := Prod.mk.inj (Except.ok.inj hframe)
    exact absurd hreceived.symm (hburst.ne_checked other)

/-- The payload of a zero byte, with its lowest bit set on the way. -/
theorem decode_burst_sample :
    ∃ kind message, decode (flag :: 1 :: u16ToLeBytes (frameFcs [0]) ++ [flag]) =
      .error (.error kind message) := by
  have hburst : Burst (checked [0]) (1 :: u16ToLeBytes (frameFcs [0])) := by
    refine ⟨rfl, ⟨0, by decide⟩, 0, fun i hwrong => ⟨Nat.zero_le i, ?_⟩⟩
    -- From the second byte on nothing has changed.
    by_contra hi
    apply hwrong
    rw [checked, List.singleton_append, bits_cons, bits_cons,
      List.getElem?_append_right (by simp; omega),
      List.getElem?_append_right (by simp; omega), length_bitsOf, length_bitsOf]
  exact decode_burst [0] _ _ hburst (by decide)

end Axsh.Hdlc

/-
# Feedback shift registers

A register of `w` bits takes in a message bit by bit: a bit is added to the lowest
bit of the register, the register moves down by one, and a feedback word is added
to it if a one has fallen out. Addition is modulo two, so a move is linear.

When the highest bit of the feedback word is set, a move loses nothing, and the
register after at most `w` bits determines them together with the register before.
Two messages that differ only within `w` bits in a row therefore never leave the
register in the same state (`eq_of_run_eq`).
-/

import Mathlib.Data.List.GetD
import Mathlib.Logic.Function.Iterate
import Mathlib.Tactic.SplitIfs

set_option autoImplicit false

namespace ShiftRegister

variable {w : ℕ} (feedback : BitVec w)

/-- One move of the register. -/
def shift (state : BitVec w) : BitVec w :=
  if state.getLsbD 0 then (state >>> 1) ^^^ feedback else state >>> 1

/-- A bit as the lowest bit of a register. -/
def lowest (bit : Bool) : BitVec w := (BitVec.ofBool bit).setWidth w

/-- Take in one bit. -/
def feed (state : BitVec w) (bit : Bool) : BitVec w := shift feedback (state ^^^ lowest bit)

/-- Take in a message. -/
def run (state : BitVec w) (message : List Bool) : BitVec w := message.foldl (feed feedback) state

/-- The message as a word, the first bit lowest. -/
def word : List Bool → BitVec w
  | [] => 0
  | bit :: message => lowest bit ^^^ (word message <<< 1)

theorem run_append (state : BitVec w) (front back : List Bool) :
    run feedback state (front ++ back) = run feedback (run feedback state front) back :=
  List.foldl_append ..

theorem getLsbD_lowest (bit : Bool) (i : ℕ) :
    (lowest bit : BitVec w).getLsbD i = (decide (i < w) && decide (i = 0) && bit) := by
  rw [lowest, BitVec.getLsbD_setWidth, BitVec.getLsbD_ofBool, Bool.and_assoc]

/-- The bits of a word are those of the message, as many as fit. -/
theorem getLsbD_word (message : List Bool) (i : ℕ) :
    (word message : BitVec w).getLsbD i = (decide (i < w) && message.getD i false) := by
  induction message generalizing i with
  | nil => simp [word]
  | cons bit message ih =>
    rw [word, BitVec.getLsbD_xor, getLsbD_lowest, BitVec.getLsbD_shiftLeft, ih]
    cases i with
    | zero => simp
    | succ i =>
      by_cases hi : i + 1 < w
      · simp [hi, Nat.lt_of_succ_lt hi]
      · simp [hi]

/-- A message that fits is determined by its word. -/
theorem eq_of_word_eq {first second : List Bool} (hlength : first.length = second.length)
    (hfit : first.length ≤ w) (h : (word first : BitVec w) = word second) : first = second := by
  apply List.ext_getElem hlength
  intro i hfirst hsecond
  have hbit := congrArg (fun state => BitVec.getLsbD state i) h
  have hi : i < w := Nat.lt_of_lt_of_le hfirst hfit
  simp only [getLsbD_word, hi, decide_true, Bool.true_and] at hbit
  rwa [List.getD_eq_getElem _ _ hfirst, List.getD_eq_getElem _ _ hsecond] at hbit

/-! ## Moves -/

theorem shift_xor (state other : BitVec w) :
    shift feedback (state ^^^ other) = shift feedback state ^^^ shift feedback other := by
  have hswap (a b c d : BitVec w) : a ^^^ b ^^^ (c ^^^ d) = a ^^^ c ^^^ (b ^^^ d) := by ac_rfl
  have hshift (x : BitVec w) :
      shift feedback x = (x >>> 1) ^^^ if x.getLsbD 0 then feedback else 0 := by
    unfold shift
    split_ifs <;> simp
  rw [hshift, hshift, hshift, hswap, ← BitVec.ushiftRight_xor_distrib, BitVec.getLsbD_xor]
  cases state.getLsbD 0 <;> cases other.getLsbD 0 <;> simp

/-- A word whose lowest bit is clear only moves down. -/
theorem shift_shiftLeft {state : BitVec w} (h : state.msb = false) :
    shift feedback (state <<< 1) = state := by
  have hlow : (state <<< 1).getLsbD 0 = false := by simp
  rw [shift, hlow]
  apply BitVec.eq_of_getLsbD_eq
  intro i hi
  by_cases hlast : 1 + i < w
  · simp [hlast, hi]
  · -- The highest bit, which the shift up has dropped, was clear.
    obtain rfl : i = w - 1 := by omega
    rw [BitVec.msb_eq_getLsbD_last] at h
    simp [h]

variable {feedback}

/-- With the highest bit of the feedback word set, a move loses nothing. -/
theorem shift_injective (hfeedback : feedback.msb = true) :
    Function.Injective (shift feedback) := by
  intro state other h
  -- The highest bit after the move is the bit that has fallen out.
  have hw : 0 < w := by
    by_contra hw
    obtain rfl : w = 0 := by omega
    simp [BitVec.msb_eq_getLsbD_last] at hfeedback
  have htop (x : BitVec w) : (shift feedback x).getLsbD (w - 1) = x.getLsbD 0 := by
    rw [BitVec.msb_eq_getLsbD_last] at hfeedback
    have hout : x.getLsbD (1 + (w - 1)) = false := BitVec.getLsbD_of_ge _ _ (by omega)
    unfold shift
    split_ifs with hlow <;> simp [hfeedback, hout, hlow]
  have hlow : state.getLsbD 0 = other.getLsbD 0 := by rw [← htop, ← htop, h]
  have hrest : state >>> 1 = other >>> 1 := by
    unfold shift at h
    rw [hlow] at h
    split_ifs at h
    · exact (BitVec.xor_left_inj _).mp h
    · exact h
  apply BitVec.eq_of_getLsbD_eq
  intro i _
  cases i with
  | zero => exact hlow
  | succ i =>
    have hbit := congrArg (fun x => BitVec.getLsbD x i) hrest
    simpa [Nat.add_comm 1 i] using hbit

theorem run_injective (hfeedback : feedback.msb = true) (message : List Bool) :
    Function.Injective fun state => run feedback state message := by
  induction message with
  | nil => exact fun _ _ h => h
  | cons bit message ih =>
    intro state other h
    have hshift := shift_injective hfeedback (ih h)
    exact (BitVec.xor_left_inj _).mp hshift

/-- A message that fits is taken in by adding its word and moving as many times. -/
theorem run_eq {message : List Bool} (hfit : message.length ≤ w) (state : BitVec w) :
    run feedback state message = (shift feedback)^[message.length] (state ^^^ word message) := by
  induction message generalizing state with
  | nil => simp [run, word]
  | cons bit message ih =>
    -- The word of the rest leaves the highest bit clear, so it can be added before the move.
    have hmsb : (word message : BitVec w).msb = false := by
      have hlast : message.length ≤ w - 1 := by
        rw [List.length_cons] at hfit
        omega
      simp [BitVec.msb_eq_getLsbD_last, getLsbD_word, hlast]
    have hrest := shift_shiftLeft feedback hmsb
    rw [List.length_cons, Function.iterate_succ_apply, word, ← BitVec.xor_assoc, shift_xor, hrest]
    exact ih (Nat.le_of_succ_le hfit) (feed feedback state bit)

/-- Messages that differ only within a window that fits do not leave the register in
one state. -/
theorem eq_of_run_eq (hfeedback : feedback.msb = true) {first second : List Bool}
    (hlength : first.length = second.length) (hfit : first.length ≤ w) {state : BitVec w}
    {front back : List Bool}
    (h : run feedback state (front ++ (first ++ back)) =
      run feedback state (front ++ (second ++ back))) : first = second := by
  rw [run_append, run_append, run_append, run_append] at h
  have hwindow : run feedback (run feedback state front) first =
      run feedback (run feedback state front) second := run_injective hfeedback back h
  have hsecond : second.length ≤ w := by rwa [← hlength]
  rw [run_eq hfit (run feedback state front), run_eq hsecond (run feedback state front),
    hlength] at hwindow
  have hword := (shift_injective hfeedback).iterate _ hwindow
  exact eq_of_word_eq hlength hfit ((BitVec.xor_right_inj _).mp hword)

end ShiftRegister

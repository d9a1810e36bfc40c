/-
# Fixed-width big-endian numbers

A natural number written in a fixed number of base-256 digits, most significant
digit first, and the number that a byte string stands for. Writing keeps the
number modulo the width's range; reading back a written number and writing a
read one are inverse to each other, so the encoding is injective below that
range.
-/

import Mathlib.Data.List.Induction
import Mathlib.Data.Nat.ModEq
import Mathlib.Tactic.Ring

set_option autoImplicit false

namespace BigEndian

/-- The last `width` base-256 digits of `n`, most significant first. -/
def digits : ℕ → ℕ → List UInt8
  | 0, _ => []
  | width + 1, n => digits width (n / 256) ++ [UInt8.ofNat n]

/-- The number a big-endian byte string stands for. -/
def value (bytes : List UInt8) : ℕ :=
  bytes.foldl (fun total digit => total * 256 + digit.toNat) 0

@[simp] theorem length_digits (width n : ℕ) : (digits width n).length = width := by
  induction width generalizing n with
  | zero => rfl
  | succ width ih => simp [digits, ih]

@[simp] theorem value_nil : value [] = 0 := rfl

@[simp] theorem value_concat (bytes : List UInt8) (digit : UInt8) :
    value (bytes ++ [digit]) = value bytes * 256 + digit.toNat := by
  simp [value]

/-- A byte string stands for a number below its width's range. -/
theorem value_lt (bytes : List UInt8) : value bytes < 256 ^ bytes.length := by
  induction bytes using List.reverseRecOn with
  | nil => simp
  | append_singleton bytes digit ih =>
    have hdigit : digit.toNat < 256 := digit.toNat_lt
    rw [value_concat, List.length_append, List.length_singleton, pow_succ]
    omega

/-- Reading a written number returns it, up to the range of the width. -/
theorem value_digits (width n : ℕ) : value (digits width n) = n % 256 ^ width := by
  induction width generalizing n with
  | zero => simp [digits, Nat.mod_one]
  | succ width ih =>
    rw [digits, value_concat, ih, pow_succ, mul_comm (256 ^ width), Nat.mod_mul]
    simp only [UInt8.toNat_ofNat']
    ring

/-- Writing a read byte string at its own width returns it. -/
theorem digits_value (bytes : List UInt8) : digits bytes.length (value bytes) = bytes := by
  induction bytes using List.reverseRecOn with
  | nil => rfl
  | append_singleton bytes digit ih =>
    have hdigit : digit.toNat < 256 := digit.toNat_lt
    have hhigh : (value bytes * 256 + digit.toNat) / 256 = value bytes := by omega
    have hlow : UInt8.ofNat (value bytes * 256 + digit.toNat) = digit := by
      apply UInt8.toNat_inj.mp
      rw [UInt8.toNat_ofNat']
      omega
    rw [List.length_append, List.length_singleton, value_concat, digits, hhigh, hlow, ih]

/-- Below the range of the width, a number is determined by its digits. -/
theorem eq_of_digits_eq {width m n : ℕ} (hm : m < 256 ^ width) (hn : n < 256 ^ width)
    (h : digits width m = digits width n) : m = n := by
  have hvalue := congrArg value h
  rwa [value_digits, value_digits, Nat.mod_eq_of_lt hm, Nat.mod_eq_of_lt hn] at hvalue

end BigEndian

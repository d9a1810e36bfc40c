/-
# Bounded decimal numbers

A text of decimal digits stands for one number, whatever zeros are in front. A reader takes the
digits from the left and stops at the first character that is none, or at the first digit with
which the number leaves its range. It reads exactly the texts whose number is in range: more
digits never make a number smaller, so the order of the two checks does not matter.
-/

import Mathlib.Data.Nat.Digits.Defs

set_option autoImplicit false

namespace Decimal

/-- Why a text is not read as a number. -/
inductive Fault
  | empty | invalidDigit | overflow
  deriving DecidableEq, Repr

/-- The text is digits only, and they stand for `n`. -/
structure IsDecimal (text : List Char) (n : ℕ) : Prop where
  ne_nil : text ≠ []
  isDigit : ∀ c ∈ text, c.isDigit = true
  value : Nat.ofDigitChars 10 text 0 = n

/-- One more character behind the digits of `n`, in the range below `limit`. -/
def push (limit n : ℕ) (c : Char) : Except Fault ℕ :=
  if c.isDigit then
    let next := 10 * n + (c.toNat - '0'.toNat)
    if next < limit then .ok next else .error .overflow
  else .error .invalidDigit

/-- Read a number below `limit`. -/
def read (limit : ℕ) (text : List Char) : Except Fault ℕ :=
  if text = [] then .error .empty else text.foldlM (push limit) 0

variable {limit m n : ℕ} {text : List Char}

theorem IsDecimal.unique (h : IsDecimal text m) (h' : IsDecimal text n) : m = n :=
  h.value.symm.trans h'.value

/-- The digits that `Nat.toDigits` writes are a decimal. -/
theorem isDecimal_toDigits (n : ℕ) : IsDecimal (Nat.toDigits 10 n) n where
  ne_nil := Nat.toDigits_ne_nil
  isDigit _ hc := Nat.isDigit_of_mem_toDigits (by decide) le_rfl hc
  value := Nat.ofDigitChars_ten_toDigits

/-- More digits never make a number smaller. -/
theorem le_ofDigitChars (text : List Char) (n : ℕ) : n ≤ Nat.ofDigitChars 10 text n := by
  induction text generalizing n with
  | nil => exact Nat.ofDigitChars_nil.ge
  | cons c text ih =>
    rw [Nat.ofDigitChars_cons]
    calc
      n ≤ 10 * n + (c.toNat - '0'.toNat) := by omega
      _ ≤ _ := ih _

/-- The loop of the reader, from a number in range. -/
theorem foldlM_push_eq_ok_iff (hm : m < limit) :
    text.foldlM (push limit) m = .ok n ↔
      (∀ c ∈ text, c.isDigit = true) ∧ Nat.ofDigitChars 10 text m = n ∧ n < limit := by
  induction text generalizing m with
  | nil =>
    simp only [List.foldlM_nil, Nat.ofDigitChars_nil, pure, Except.pure, Except.ok.injEq,
      List.not_mem_nil, false_imp_iff, implies_true, true_and]
    constructor
    · rintro rfl
      exact ⟨rfl, hm⟩
    · exact And.left
  | cons c text ih =>
    rw [List.foldlM_cons, Nat.ofDigitChars_cons, List.forall_mem_cons]
    by_cases hdigit : c.isDigit = true
    · by_cases hnext : 10 * m + (c.toNat - '0'.toNat) < limit
      · have hpush : push limit m c = .ok (10 * m + (c.toNat - '0'.toNat)) := by
          simp only [push, if_pos hdigit, if_pos hnext]
        rw [hpush]
        exact (ih hnext).trans (by rw [and_iff_right hdigit])
      · -- The number has left its range and stays out of it.
        have hpush : push limit m c = .error .overflow := by
          simp only [push, if_pos hdigit, if_neg hnext]
        rw [hpush]
        refine iff_of_false (by simp [bind, Except.bind]) ?_
        rintro ⟨-, hvalue, hlt⟩
        have hle := le_ofDigitChars text (10 * m + (c.toNat - '0'.toNat))
        omega
    · have hpush : push limit m c = .error .invalidDigit := by
        simp only [push, if_neg hdigit]
      rw [hpush]
      exact iff_of_false (by simp [bind, Except.bind]) fun h => hdigit h.1.1

/-- The reader reads exactly the decimals in range. -/
theorem read_eq_ok_iff (hlimit : 0 < limit) :
    read limit text = .ok n ↔ IsDecimal text n ∧ n < limit := by
  unfold read
  split_ifs with hnil
  · exact iff_of_false (by simp) fun h => h.1.ne_nil hnil
  · rw [foldlM_push_eq_ok_iff hlimit]
    constructor
    · rintro ⟨hdigit, hvalue, hlt⟩
      exact ⟨⟨hnil, hdigit, hvalue⟩, hlt⟩
    · rintro ⟨hdecimal, hlt⟩
      exact ⟨hdecimal.isDigit, hdecimal.value, hlt⟩

end Decimal

/-
# Durations on the command line

`parse_duration` cuts a suffix of one letter and reads what is left as a number. The suffix `ms`
that its comment documents ends in the suffix `s`, which is tried first and leaves the `m` among
the digits. Minutes and hours are multiplied by functions that panic when the seconds leave 64
bits. On every other argument the parser does what is documented.
-/

import Axsh.Text
import Axsh.Lib.Decimal

set_option autoImplicit false

namespace Axsh

open Decimal

/-! ## The clock's unit -/

/-- `std::time::Duration`: seconds and the nanoseconds of a started one. -/
structure Duration where
  secs : UInt64
  nanos : ℕ
  nanos_lt : nanos < 10 ^ 9
  deriving DecidableEq

namespace Duration

/-- `Duration::as_nanos`. -/
def asNanos (self : Duration) : ℕ := self.secs.toNat * 10 ^ 9 + self.nanos

/-- `Duration::from_secs`. -/
def fromSecs (secs : UInt64) : Duration := { secs, nanos := 0, nanos_lt := by omega }

/-- A count of units of `unit` seconds, which panics when the seconds overflow. -/
def fromUnits (unit : UInt64) (message : String) (count : UInt64) : Res Duration :=
  if count.toNat > (2 ^ 64 - 1) / unit.toNat then .error (.panic message)
  else .ok (fromSecs (count * unit))

/-- `Duration::from_mins`. -/
def fromMins : UInt64 → Res Duration := fromUnits 60 "overflow in Duration::from_mins"

/-- `Duration::from_hours`. -/
def fromHours : UInt64 → Res Duration := fromUnits (60 * 60) "overflow in Duration::from_hours"

@[simp] theorem asNanos_fromSecs (secs : UInt64) : (fromSecs secs).asNanos = secs.toNat * 10 ^ 9 :=
  Nat.add_zero _

theorem asNanos_injective : Function.Injective asNanos := by
  intro first second h
  have hfirst := first.nanos_lt
  have hsecond := second.nanos_lt
  obtain ⟨secs, nanos, _⟩ := first
  obtain ⟨secs', nanos', _⟩ := second
  simp only [asNanos] at h hfirst hsecond
  have hsecs : secs.toNat = secs'.toNat := by omega
  obtain rfl := UInt64.toNat_inj.mp hsecs
  obtain rfl : nanos = nanos' := by omega
  rfl

/-- The durations are the numbers of nanoseconds of less than `2^64` seconds. -/
theorem exists_asNanos_iff {t : ℕ} : (∃ d : Duration, d.asNanos = t) ↔ t < 2 ^ 64 * 10 ^ 9 := by
  constructor
  · rintro ⟨d, rfl⟩
    have hsecs := d.secs.toNat_lt
    have hnanos := d.nanos_lt
    rw [asNanos]
    omega
  · intro ht
    refine ⟨⟨UInt64.ofNat (t / 10 ^ 9), t % 10 ^ 9, Nat.mod_lt _ (by omega)⟩, ?_⟩
    have hsecs : (UInt64.ofNat (t / 10 ^ 9)).toNat = t / 10 ^ 9 :=
      UInt64.toNat_ofNat_of_lt' (Nat.div_lt_of_lt_mul (by rw [mul_comm]; exact ht))
    change (UInt64.ofNat (t / 10 ^ 9)).toNat * 10 ^ 9 + t % 10 ^ 9 = t
    rw [hsecs, Nat.div_add_mod']

variable {unit count : UInt64} {message : String}

/-- Units whose seconds fit are counted exactly. -/
theorem fromUnits_eq (h : count.toNat * unit.toNat < 2 ^ 64) (hunit : 0 < unit.toNat) :
    fromUnits unit message count = .ok (fromSecs (count * unit)) ∧
      (fromSecs (count * unit)).asNanos = count.toNat * (unit.toNat * 10 ^ 9) := by
  constructor
  · have hle : count.toNat ≤ (2 ^ 64 - 1) / unit.toNat :=
      (Nat.le_div_iff_mul_le hunit).mpr (by omega)
    exact if_neg hle.not_gt
  · rw [asNanos_fromSecs, UInt64.toNat_mul, Nat.mod_eq_of_lt h, mul_assoc]

/-- The others are a panic. -/
theorem fromUnits_panic (h : 2 ^ 64 ≤ count.toNat * unit.toNat) (hunit : 0 < unit.toNat) :
    fromUnits unit message count = .error (.panic message) := by
  have hlt : (2 ^ 64 - 1) / unit.toNat < count.toNat := (Nat.div_lt_iff_lt_mul hunit).mpr (by omega)
  exact if_pos hlt

end Duration

/-! ## Parsing -/

/-- The texts of `std::num::ParseIntError`. -/
def parseIntError : Fault → String
  | .empty => "cannot parse integer from empty string"
  | .invalidDigit => "invalid digit found in string"
  | .overflow => "number too large to fit in target type"

/-- `str::parse::<u64>`. A `+` may stand in front of the digits, but not alone. -/
def parseU64 (text : Text) : Res UInt64 :=
  let digits := if text.head? = some '+' ∧ text ≠ ['+'] then text.tail else text
  match read (2 ^ 64) digits with
  | .ok n => .ok (UInt64.ofNat n)
  | .error fault => bail (parseIntError fault)

/-- `str::strip_suffix`, of one character. -/
def stripSuffix (suffix : Char) (text : Text) : Option Text :=
  if text.getLast? = some suffix then some text.dropLast else none

/-- `parse_duration`. -/
def parseDuration (arg : Text) : Res Duration :=
  match stripSuffix 's' arg with
  | some seconds => do return Duration.fromSecs (← parseU64 seconds)
  | none =>
    match stripSuffix 'm' arg with
    | some minutes => do Duration.fromMins (← parseU64 minutes)
    | none =>
      match stripSuffix 'h' arg with
      | some hours => do Duration.fromHours (← parseU64 hours)
      | none => do return Duration.fromSecs (← parseU64 arg)

/-- `DEFAULT_HANDSHAKE_TIMEOUT`. -/
def defaultHandshakeTimeout : Res Duration := Duration.fromMins 5

/-- `DEFAULT_HANDSHAKE_TIMEOUT_STR`. -/
def defaultHandshakeTimeoutStr : Text := "5m".toList

/-- The two defaults are in sync. -/
theorem parseDuration_default :
    parseDuration defaultHandshakeTimeoutStr = defaultHandshakeTimeout := by decide

/-! ## Numbers -/

/-- The texts that are read as `n` when it fits: digits, behind a `+` or not. -/
def IsNumeral (text : Text) (n : ℕ) : Prop :=
  IsDecimal text n ∨ ∃ digits, text = '+' :: digits ∧ IsDecimal digits n

section Numbers

variable {text : Text} {n : ℕ} {value : UInt64}

theorem IsNumeral.isDigit_of_concat {c : Char} (h : IsNumeral (text ++ [c]) n) :
    c.isDigit = true := by
  rcases h with h | ⟨digits, heq, h⟩
  · exact h.isDigit c (by simp)
  · -- The digits are not empty, so the last character is one of them.
    obtain ⟨front, last, rfl⟩ := List.eq_nil_or_concat digits |>.resolve_left h.ne_nil
    have hlast := congrArg List.getLast? heq
    simp only [List.concat_eq_append, ← List.cons_append, List.getLast?_concat,
      Option.some.injEq] at hlast
    exact h.isDigit c (by simp [hlast])

theorem isNumeral_iff : IsNumeral text n ↔
    IsDecimal (if text.head? = some '+' ∧ text ≠ ['+'] then text.tail else text) n := by
  have hplus : ∀ digits, ¬ IsDecimal ('+' :: digits) n := fun digits h =>
    absurd (h.isDigit '+' List.mem_cons_self) (by decide)
  split_ifs with hsign
  · obtain ⟨digits, rfl⟩ := List.head?_eq_some_iff.mp hsign.1
    constructor
    · rintro (h | ⟨digits', heq, h⟩)
      · exact absurd h (hplus digits)
      · obtain rfl := List.tail_eq_of_cons_eq heq
        exact h
    · exact fun h => .inr ⟨digits, rfl, h⟩
  · constructor
    · rintro (h | ⟨digits, rfl, h⟩)
      · exact h
      · refine absurd ⟨rfl, fun heq => h.ne_nil ?_⟩ hsign
        exact List.tail_eq_of_cons_eq heq
    · exact .inl

/-- `parse` reads exactly the numerals of 64 bits. -/
theorem parseU64_eq_ok_iff : parseU64 text = .ok value ↔ IsNumeral text value.toNat := by
  rw [isNumeral_iff, parseU64]
  generalize (if text.head? = some '+' ∧ text ≠ ['+'] then text.tail else text) = digits
  have hlimit : 0 < 2 ^ 64 := by omega
  cases hread : read (2 ^ 64) digits with
  | error fault =>
    refine iff_of_false (bail_ne_ok _ _) fun h => ?_
    rw [(read_eq_ok_iff hlimit).mpr ⟨h, value.toNat_lt⟩] at hread
    cases hread
  | ok n =>
    obtain ⟨hdecimal, hlt⟩ := (read_eq_ok_iff hlimit).mp hread
    simp only [Except.ok.injEq]
    constructor
    · rintro rfl
      rwa [UInt64.toNat_ofNat_of_lt' hlt]
    · intro h
      rw [hdecimal.unique h, UInt64.ofNat_toNat]

/-- A numeral of 64 bits is read. -/
theorem exists_parseU64 (h : IsNumeral text n) (hn : n < 2 ^ 64) :
    ∃ value, parseU64 text = .ok value ∧ value.toNat = n := by
  have hvalue : (UInt64.ofNat n).toNat = n := UInt64.toNat_ofNat_of_lt' hn
  exact ⟨UInt64.ofNat n, parseU64_eq_ok_iff.mpr (by rwa [hvalue]), hvalue⟩

theorem parseU64_noPanic (text : Text) : (parseU64 text).NoPanic := by
  unfold parseU64
  simp only []
  split
  · exact noPanic_ok _
  · exact noPanic_bail _

end Numbers

/-! ## The suffixes -/

section Suffixes

variable {text : Text} {c : Char}

theorem stripSuffix_concat (text : Text) (c : Char) : stripSuffix c (text ++ [c]) = some text := by
  simp [stripSuffix]

theorem stripSuffix_concat_of_ne {suffix : Char} (h : c ≠ suffix) :
    stripSuffix suffix (text ++ [c]) = none := by
  simp [stripSuffix, h]

theorem parseDuration_secs (text : Text) : parseDuration (text ++ ['s']) =
    (do return Duration.fromSecs (← parseU64 text)) := by
  simp only [parseDuration, stripSuffix_concat]

theorem parseDuration_mins (text : Text) : parseDuration (text ++ ['m']) =
    (do Duration.fromMins (← parseU64 text)) := by
  simp only [parseDuration, stripSuffix_concat,
    stripSuffix_concat_of_ne (show 'm' ≠ 's' by decide)]

theorem parseDuration_hours (text : Text) : parseDuration (text ++ ['h']) =
    (do Duration.fromHours (← parseU64 text)) := by
  simp only [parseDuration, stripSuffix_concat,
    stripSuffix_concat_of_ne (show 'h' ≠ 's' by decide),
    stripSuffix_concat_of_ne (show 'h' ≠ 'm' by decide)]

/-- Without a suffix the whole argument is read. -/
theorem parseDuration_bare (h : ∀ c ∈ text.getLast?, c ≠ 's' ∧ c ≠ 'm' ∧ c ≠ 'h') :
    parseDuration text = (do return Duration.fromSecs (← parseU64 text)) := by
  have hnone : ∀ suffix ∈ ['s', 'm', 'h'], stripSuffix suffix text = none := by
    intro suffix hmem
    refine if_neg fun hlast => ?_
    have hne := h suffix hlast
    simp only [List.mem_cons, List.not_mem_nil, or_false] at hmem
    tauto
  simp only [parseDuration, hnone 's' (by simp), hnone 'm' (by simp), hnone 'h' (by simp)]

/-- An argument has one of three suffixes or none of them. -/
theorem suffix_cases (arg : Text) : (∃ text, arg = text ++ ['s']) ∨ (∃ text, arg = text ++ ['m']) ∨
    (∃ text, arg = text ++ ['h']) ∨ ∀ c ∈ arg.getLast?, c ≠ 's' ∧ c ≠ 'm' ∧ c ≠ 'h' := by
  rcases List.eq_nil_or_concat arg with rfl | ⟨text, c, rfl⟩
  · simp
  · rw [List.concat_eq_append]
    by_cases hs : c = 's'
    · exact .inl ⟨text, by rw [hs]⟩
    by_cases hm : c = 'm'
    · exact .inr (.inl ⟨text, by rw [hm]⟩)
    by_cases hh : c = 'h'
    · exact .inr (.inr (.inl ⟨text, by rw [hh]⟩))
    · exact .inr (.inr (.inr (by simp [hs, hm, hh])))

end Suffixes

/-! ## What is documented -/

/-- The forms of the comment: bare numbers and the four suffixes. -/
inductive TimeUnit
  | bare | millis | secs | mins | hours
  deriving DecidableEq, Repr

namespace TimeUnit

def suffix : TimeUnit → Text
  | .bare => []
  | .millis => ['m', 's']
  | .secs => ['s']
  | .mins => ['m']
  | .hours => ['h']

/-- The length of the unit in nanoseconds. -/
def nanos : TimeUnit → ℕ
  | .bare => 10 ^ 9
  | .millis => 10 ^ 6
  | .secs => 10 ^ 9
  | .mins => 60 * 10 ^ 9
  | .hours => 3600 * 10 ^ 9

end TimeUnit

/-- The parser does on `arg` what it should: it does not panic, and on a documented form it
returns the duration if there is one and an error otherwise. -/
structure Documented (arg : Text) : Prop where
  noPanic : (parseDuration arg).NoPanic
  accepts : ∀ (digits : Text) (n : ℕ) (unit : TimeUnit), arg = digits ++ unit.suffix →
    IsDecimal digits n → n < 2 ^ 64 → ∀ d : Duration, d.asNanos = n * unit.nanos →
    parseDuration arg = .ok d
  refuses : ∀ (digits : Text) (n : ℕ) (unit : TimeUnit), arg = digits ++ unit.suffix →
    IsDecimal digits n → n < 2 ^ 64 → (∀ d : Duration, d.asNanos ≠ n * unit.nanos) →
    ∃ kind message, parseDuration arg = .error (.error kind message)

/-- The text is a number of 64 bits whose units of `unit` seconds are too many seconds. -/
def Overflows (unit : ℕ) (text : Text) : Prop :=
  ∃ n, IsNumeral text n ∧ n < 2 ^ 64 ∧ 2 ^ 64 ≤ n * unit

section Units

variable {unit : UInt64} {message : String} {text : Text} {n : ℕ}

/-- A numeral whose seconds fit is that many units. -/
theorem exists_fromUnits (hunit : 0 < unit.toNat) (h : IsNumeral text n) (hn : n < 2 ^ 64)
    (hfit : n * unit.toNat < 2 ^ 64) :
    ∃ d, (do Duration.fromUnits unit message (← parseU64 text)) = .ok d ∧
      d.asNanos = n * (unit.toNat * 10 ^ 9) := by
  obtain ⟨value, hparse, rfl⟩ := exists_parseU64 h hn
  rw [hparse, ok_bind]
  exact ⟨_, Duration.fromUnits_eq hfit hunit⟩

/-- Reading units panics exactly when the number of seconds overflows. -/
theorem noPanic_fromUnits_iff (hunit : 0 < unit.toNat) :
    Res.NoPanic (do Duration.fromUnits unit message (← parseU64 text)) ↔
      ¬ Overflows unit.toNat text := by
  constructor
  · rintro hpanic ⟨n, hnumeral, hn, hover⟩
    obtain ⟨value, hparse, rfl⟩ := exists_parseU64 hnumeral hn
    rw [hparse, ok_bind, Duration.fromUnits_panic hover hunit] at hpanic
    exact hpanic message rfl
  · refine fun hfits => (parseU64_noPanic text).bind fun value hparse => ?_
    have hlt : value.toNat * unit.toNat < 2 ^ 64 := by
      by_contra hover
      exact hfits ⟨_, parseU64_eq_ok_iff.mp hparse, value.toNat_lt, not_lt.mp hover⟩
    rw [(Duration.fromUnits_eq hlt hunit).1]
    exact noPanic_ok _

/-- Seconds always fit. -/
theorem exists_fromSecs (h : IsNumeral text n) (hn : n < 2 ^ 64) :
    ∃ d, (do return Duration.fromSecs (← parseU64 text) : Res Duration) = .ok d ∧
      d.asNanos = n * 10 ^ 9 := by
  obtain ⟨value, hparse, rfl⟩ := exists_parseU64 h hn
  rw [hparse, ok_bind]
  exact ⟨_, rfl, Duration.asNanos_fromSecs value⟩

theorem noPanic_fromSecs (text : Text) :
    Res.NoPanic (do return Duration.fromSecs (← parseU64 text)) :=
  (parseU64_noPanic text).bind fun _ _ => noPanic_ok _

end Units

/-! ## The arguments it fails on -/

section Fails

variable {arg : Text}

/-- The suffix `ms` is never accepted: the `m` is left among the digits. -/
theorem parseDuration_millis_ne_ok (text : Text) (d : Duration) :
    parseDuration (text ++ ['m', 's']) ≠ .ok d := by
  intro h
  have hcut : text ++ ['m', 's'] = (text ++ ['m']) ++ ['s'] := by simp
  rw [hcut, parseDuration_secs] at h
  obtain ⟨value, hparse, -⟩ := bind_eq_ok.mp h
  exact absurd (parseU64_eq_ok_iff.mp hparse).isDigit_of_concat (by decide)

/-- A text cut behind its last character. -/
theorem exists_concat_iff {text : Text} {c c' : Char} {P : Text → Prop} :
    (∃ text', text ++ [c] = text' ++ [c'] ∧ P text') ↔ c = c' ∧ P text := by
  constructor
  · rintro ⟨text', h, hP⟩
    obtain ⟨rfl, hc⟩ := List.append_inj' h rfl
    exact ⟨List.singleton_inj.mp hc, hP⟩
  · rintro ⟨rfl, hP⟩
    exact ⟨text, rfl, hP⟩

/-- The parser panics exactly on minutes and hours whose seconds overflow. -/
theorem parseDuration_noPanic_iff : (parseDuration arg).NoPanic ↔
    (¬ ∃ text, arg = text ++ ['m'] ∧ Overflows 60 text) ∧
      ¬ ∃ text, arg = text ++ ['h'] ∧ Overflows 3600 text := by
  rcases suffix_cases arg with ⟨text, rfl⟩ | ⟨text, rfl⟩ | ⟨text, rfl⟩ | hbare
  · rw [exists_concat_iff, exists_concat_iff, parseDuration_secs]
    exact iff_of_true (noPanic_fromSecs text) (by simp)
  · rw [exists_concat_iff, exists_concat_iff, parseDuration_mins, Duration.fromMins,
      noPanic_fromUnits_iff (by decide)]
    simp
  · rw [exists_concat_iff, exists_concat_iff, parseDuration_hours, Duration.fromHours,
      noPanic_fromUnits_iff (by decide)]
    simp
  · rw [parseDuration_bare hbare]
    refine iff_of_true (noPanic_fromSecs arg) ⟨?_, ?_⟩
    · rintro ⟨text, rfl, -⟩
      simp at hbare
    · rintro ⟨text, rfl, -⟩
      simp at hbare

/-- Away from `ms`, a documented form that fits is the duration it stands for. -/
theorem exists_parseDuration {digits : Text} {n : ℕ} {unit : TimeUnit} (hms : unit ≠ .millis)
    (hdecimal : IsDecimal digits n) (hn : n < 2 ^ 64)
    (hpanic : (parseDuration (digits ++ unit.suffix)).NoPanic) :
    ∃ d, parseDuration (digits ++ unit.suffix) = .ok d ∧ d.asNanos = n * unit.nanos := by
  have hnumeral : IsNumeral digits n := .inl hdecimal
  rw [parseDuration_noPanic_iff] at hpanic
  cases unit with
  | millis => exact absurd rfl hms
  | bare =>
    have hlast : ∀ c ∈ digits.getLast?, c ≠ 's' ∧ c ≠ 'm' ∧ c ≠ 'h' := by
      intro c hc
      have hdigit := hdecimal.isDigit c (List.mem_of_getLast? hc)
      refine ⟨?_, ?_, ?_⟩ <;> rintro rfl <;> exact absurd hdigit (by decide)
    rw [TimeUnit.suffix, List.append_nil, parseDuration_bare hlast]
    exact exists_fromSecs hnumeral hn
  | secs =>
    rw [TimeUnit.suffix, parseDuration_secs]
    exact exists_fromSecs hnumeral hn
  | mins =>
    have hfit : n * 60 < 2 ^ 64 := by
      by_contra hover
      exact hpanic.1 ⟨digits, rfl, n, hnumeral, hn, not_lt.mp hover⟩
    rw [TimeUnit.suffix, parseDuration_mins]
    exact exists_fromUnits (by decide) hnumeral hn hfit
  | hours =>
    have hfit : n * 3600 < 2 ^ 64 := by
      by_contra hover
      exact hpanic.2 ⟨digits, rfl, n, hnumeral, hn, not_lt.mp hover⟩
    rw [TimeUnit.suffix, parseDuration_hours]
    exact exists_fromUnits (by decide) hnumeral hn hfit

/-- Every count of milliseconds is a duration. -/
theorem exists_asNanos_millis {n : ℕ} (hn : n < 2 ^ 64) :
    ∃ d : Duration, d.asNanos = n * TimeUnit.millis.nanos := by
  rw [Duration.exists_asNanos_iff, TimeUnit.nanos]
  omega

/-- A number of milliseconds should be accepted and is not. -/
theorem not_documented_millis {digits : Text} {n : ℕ} (hdecimal : IsDecimal digits n)
    (hn : n < 2 ^ 64) : ¬ Documented (digits ++ ['m', 's']) := by
  intro h
  obtain ⟨d, hd⟩ := exists_asNanos_millis hn
  exact parseDuration_millis_ne_ok digits d (h.accepts digits n .millis rfl hdecimal hn d hd)

/-- This is so for every number, in its usual digits. -/
theorem not_documented_toDigits {n : ℕ} (hn : n < 2 ^ 64) :
    ¬ Documented (Nat.toDigits 10 n ++ ['m', 's']) :=
  not_documented_millis (isDecimal_toDigits n) hn

end Fails

/-- The parser does what is documented exactly when its argument is neither a number of
milliseconds nor a number of minutes or hours of `2^64` seconds or more. -/
theorem parse_duration_documented_iff (arg : Text) :
    Documented arg ↔
      (¬ ∃ digits n, arg = digits ++ ['m', 's'] ∧ IsDecimal digits n ∧ n < 2 ^ 64) ∧
      (¬ ∃ text, arg = text ++ ['m'] ∧ Overflows 60 text) ∧
      ¬ ∃ text, arg = text ++ ['h'] ∧ Overflows 3600 text := by
  rw [← parseDuration_noPanic_iff]
  constructor
  · refine fun h => ⟨?_, h.noPanic⟩
    rintro ⟨digits, n, rfl, hdecimal, hn⟩
    exact not_documented_millis hdecimal hn h
  · rintro ⟨hmillis, hpanic⟩
    -- A form that is accepted with one duration leaves nothing to refuse.
    have haccepts : ∀ digits n (unit : TimeUnit), arg = digits ++ unit.suffix → IsDecimal digits n →
        n < 2 ^ 64 → ∃ d, parseDuration arg = .ok d ∧ d.asNanos = n * unit.nanos := by
      rintro digits n unit rfl hdecimal hn
      refine exists_parseDuration ?_ hdecimal hn hpanic
      rintro rfl
      exact hmillis ⟨digits, n, rfl, hdecimal, hn⟩
    refine ⟨hpanic, fun digits n unit harg hdecimal hn d hd => ?_,
      fun digits n unit harg hdecimal hn hnone => ?_⟩
    · obtain ⟨found, hparse, hfound⟩ := haccepts digits n unit harg hdecimal hn
      rw [hparse, Duration.asNanos_injective (hfound.trans hd.symm)]
    · obtain ⟨found, -, hfound⟩ := haccepts digits n unit harg hdecimal hn
      exact absurd hfound (hnone found)

/-- Five milliseconds are refused, and enough minutes are a panic. -/
theorem not_documented_5ms :
    ¬ Documented "5ms".toList ∧ ¬ Documented "18446744073709551615m".toList := by
  constructor
  · have harg : "5ms".toList = Nat.toDigits 10 5 ++ ['m', 's'] := by decide
    rw [harg]
    exact not_documented_toDigits (by omega)
  · intro h
    refine h.noPanic "overflow in Duration::from_mins" ?_
    decide

end Axsh

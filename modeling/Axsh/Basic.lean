/-
# Bytes, failures and polls

The vocabulary the modules of the program share: byte strings and fixed-size
byte arrays, the ways a call can fail, and the outcome of a poll.

A call that returns `anyhow::Result` or `std::io::Result` is a value of `Res`.
Its failures are the errors the program returns and the panics that would end
it, so a slice index, a `split_at` or an `expect` that the source does not guard
is visible in the model.
-/

import Axsh.Lib.BigEndian

set_option autoImplicit false

namespace Axsh

/-- A byte string, `Vec<u8>` or `&[u8]`. -/
abbrev Bytes := List UInt8

/-- A byte array of fixed size, `[u8; n]`. -/
abbrev Fixed (n : ℕ) := {bytes : Bytes // bytes.length = n}

/-- `std::io::ErrorKind`: the kinds the program names itself, and any other kind
the operating system reports. An error made from `anyhow` or by
`std::io::Error::other` has the kind `other`. -/
inductive ErrorKind
  | notFound | permissionDenied | invalidInput | invalidData | timedOut | writeZero
  | unexpectedEof | other
  | foreign (name : String)
  deriving DecidableEq, Repr

/-- How a call ends when it does not return its value. -/
inductive Failure
  | error (kind : ErrorKind) (message : String)
  | panic (message : String)
  deriving DecidableEq, Repr

/-- The result of a call that may return an error or panic. -/
abbrev Res (α : Type) := Except Failure α

/-- The outcome of polling a future or a stream. -/
inductive Poll (α : Type)
  | pending
  | ready (value : α)
  deriving DecidableEq, Repr

/-- `bail!`. -/
def bail {α : Type} (message : String) : Res α := .error (.error .other message)

/-- `ensure!`. -/
def ensure (condition : Prop) [Decidable condition] (message : String) : Res Unit :=
  if condition then .ok () else bail message

/-- `slice::split_at`, which panics past the end. -/
def splitAt (data : Bytes) (mid : ℕ) : Res (Bytes × Bytes) :=
  if mid ≤ data.length then .ok (data.take mid, data.drop mid) else .error (.panic "mid > len")

/-- `&data[start..stop]`, which panics out of range. -/
def slice (data : Bytes) (start stop : ℕ) : Res Bytes :=
  if start ≤ stop ∧ stop ≤ data.length then .ok ((data.take stop).drop start)
  else .error (.panic "range out of bounds")

/-- `data[i]`, which panics out of range. -/
def index (data : Bytes) (i : ℕ) : Res UInt8 :=
  match data[i]? with
  | some byte => .ok byte
  | none => .error (.panic "index out of bounds")

/-- `a - b` on `usize`, which panics below zero. -/
def usizeSub (a b : ℕ) : Res ℕ :=
  if b ≤ a then .ok (a - b) else .error (.panic "attempt to subtract with overflow")

/-- `<[u8; n]>::try_from` on a slice. -/
def toFixed? (n : ℕ) (data : Bytes) : Option (Fixed n) :=
  if h : data.length = n then some ⟨data, h⟩ else none

/-- `Result::ok`: forget an error, but not a panic. -/
def Res.toOption {α : Type} : Res α → Res (Option α)
  | .ok a => .ok (some a)
  | .error (.error _ _) => .ok none
  | .error (.panic message) => .error (.panic message)

/-- The call does not panic. -/
def Res.NoPanic {α : Type} (x : Res α) : Prop := ∀ message, x ≠ .error (.panic message)

section Res

variable {α β : Type}

/-- A sequence of two calls returns exactly when both return. -/
theorem bind_eq_ok {x : Res α} {f : α → Res β} {b : β} :
    x >>= f = .ok b ↔ ∃ a, x = .ok a ∧ f a = .ok b := by
  cases x with
  | ok a => simp [bind, Except.bind]
  | error e => simp [bind, Except.bind]

@[simp] theorem ok_bind (a : α) (f : α → Res β) : (Except.ok a : Res α) >>= f = f a := rfl

@[simp] theorem error_bind (e : Failure) (f : α → Res β) :
    (Except.error e : Res α) >>= f = .error e := rfl

@[simp] theorem bail_ne_ok (message : String) (a : α) : bail message ≠ .ok a := by simp [bail]

@[simp] theorem ensure_eq_ok {condition : Prop} [Decidable condition] {message : String}
    {u : Unit} : ensure condition message = .ok u ↔ condition := by
  unfold ensure
  split_ifs with h <;> simp [h]

theorem ensure_pos {condition : Prop} [Decidable condition] (message : String)
    (h : condition) : ensure condition message = .ok () := if_pos h

theorem ensure_neg {condition : Prop} [Decidable condition] (message : String)
    (h : ¬ condition) : ensure condition message = bail message := if_neg h

theorem splitAt_eq {data : Bytes} {mid : ℕ} (h : mid ≤ data.length) :
    splitAt data mid = .ok (data.take mid, data.drop mid) := if_pos h

/-- Splitting right after a known front separates it from the rest. -/
theorem splitAt_append {front : Bytes} {n : ℕ} (h : front.length = n) (rest : Bytes) :
    splitAt (front ++ rest) n = .ok (front, rest) := by
  rw [splitAt_eq (by simp [h]), ← h, List.take_left, List.drop_left]

theorem slice_eq {data : Bytes} {start stop : ℕ} (h : start ≤ stop) (hstop : stop ≤ data.length) :
    slice data start stop = .ok ((data.take stop).drop start) := if_pos ⟨h, hstop⟩

theorem index_eq {data : Bytes} {i : ℕ} (h : i < data.length) : index data i = .ok data[i] := by
  simp [index, h]

theorem usizeSub_eq {a b : ℕ} (h : b ≤ a) : usizeSub a b = .ok (a - b) := if_pos h

/-- The three outcomes of polling a call that may fail. -/
@[elab_as_elim]
theorem Poll.resultCases {motive : Poll (Res α) → Prop} (x : Poll (Res α))
    (pending : motive .pending) (error : ∀ e, motive (.ready (.error e)))
    (ok : ∀ a, motive (.ready (.ok a))) : motive x := by
  cases x with
  | pending => exact pending
  | ready result =>
    cases result with
    | error e => exact error e
    | ok a => exact ok a

theorem noPanic_ok (a : α) : Res.NoPanic (.ok a : Res α) := fun _ h => by cases h

theorem noPanic_bail (message : String) : Res.NoPanic (bail message : Res α) :=
  fun _ h => by simp [bail] at h

/-- An error that is no panic is none as the result of another call. -/
theorem Res.NoPanic.error {e : Failure} (h : Res.NoPanic (.error e : Res α)) :
    Res.NoPanic (.error e : Res β) := by
  intro message he
  exact h message (congrArg Except.error (Except.error.inj he))

/-- A sequence does not panic if neither call does; the second may count on what the
first returned. -/
theorem Res.NoPanic.bind {x : Res α} {f : α → Res β} (hx : x.NoPanic)
    (hf : ∀ a, x = .ok a → (f a).NoPanic) : (x >>= f).NoPanic := by
  cases x with
  | ok a => exact hf a rfl
  | error e => exact hx.error

/-- Behind a check, the code may count on what was checked. -/
theorem Res.NoPanic.ensure_bind {condition : Prop} [Decidable condition] {message : String}
    {f : Unit → Res β} (hf : condition → (f ()).NoPanic) :
    (ensure condition message >>= f).NoPanic := by
  by_cases h : condition
  · rw [ensure_pos _ h]
    exact hf h
  · rw [ensure_neg _ h]
    exact noPanic_bail message

theorem noPanic_ensure {condition : Prop} [Decidable condition] (message : String) :
    (ensure condition message).NoPanic := by
  unfold ensure
  split_ifs
  · exact noPanic_ok ()
  · exact noPanic_bail message

theorem noPanic_error (kind : ErrorKind) (message : String) :
    Res.NoPanic (.error (.error kind message) : Res α) := by
  intro message' h
  cases h

/-- A call that cannot panic forgets to an option. -/
theorem Res.NoPanic.toOption_eq {x : Res α} (h : x.NoPanic) :
    (∃ a, x = .ok a ∧ x.toOption = .ok (some a)) ∨ ((∀ a, x ≠ .ok a) ∧ x.toOption = .ok none) := by
  match x, h with
  | .ok a, _ => exact .inl ⟨a, rfl, rfl⟩
  | .error (.error _ _), _ => exact .inr ⟨fun _ => (by simp), rfl⟩
  | .error (.panic message), h => exact absurd rfl (h message)

end Res

theorem toFixed?_eq {n : ℕ} {data : Bytes} (h : data.length = n) :
    toFixed? n data = some ⟨data, h⟩ := dif_pos h

/-! ## Integers on the wire -/

/-- `u64::to_be_bytes`. -/
def u64ToBeBytes (n : UInt64) : Bytes := BigEndian.digits 8 n.toNat

/-- `u64::from_be_bytes`. -/
def u64FromBeBytes (bytes : Fixed 8) : UInt64 := UInt64.ofNat (BigEndian.value bytes.1)

@[simp] theorem length_u64ToBeBytes (n : UInt64) : (u64ToBeBytes n).length = 8 :=
  BigEndian.length_digits ..

theorem u64ToBeBytes_injective : Function.Injective u64ToBeBytes := by
  intro m n h
  apply UInt64.toNat_inj.mp
  exact BigEndian.eq_of_digits_eq (by simpa using m.toNat_lt) (by simpa using n.toNat_lt) h

theorem u64FromBeBytes_toBeBytes (n : UInt64) (h : (u64ToBeBytes n).length = 8) :
    u64FromBeBytes ⟨u64ToBeBytes n, h⟩ = n := by
  apply UInt64.toNat_inj.mp
  change (UInt64.ofNat (BigEndian.value (BigEndian.digits 8 n.toNat))).toNat = n.toNat
  rw [BigEndian.value_digits, UInt64.toNat_ofNat']
  have := n.toNat_lt
  omega

theorem u64ToBeBytes_fromBeBytes (bytes : Fixed 8) :
    u64ToBeBytes (u64FromBeBytes bytes) = bytes.1 := by
  have hlt := BigEndian.value_lt bytes.1
  have hlen := bytes.2
  rw [hlen] at hlt
  have hnat : (u64FromBeBytes bytes).toNat = BigEndian.value bytes.1 := by
    rw [u64FromBeBytes, UInt64.toNat_ofNat']
    omega
  have hdigits := BigEndian.digits_value bytes.1
  rw [hlen] at hdigits
  rw [u64ToBeBytes, hnat, hdigits]

end Axsh

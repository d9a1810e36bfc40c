/-
# Symbol stuffing

A message over an alphabet with two reserved symbols, the flag and the escape,
is stuffed by writing each reserved symbol as the escape followed by its masked
form. Stuffing removes the flag from the message, so a flag can delimit it, and
unstuffing recovers the message from the stuffed symbols alone.

Unstuffing is a two-state scan. It is written with its state, so that a scan can
be cut anywhere and continued.
-/

import Mathlib.Data.List.Basic
import Mathlib.Data.List.Count

set_option autoImplicit false

/-- The reserved symbols of a stuffing and the mask applied to an escaped
symbol. Masking is its own inverse and takes no reserved symbol to the flag. -/
structure Stuffing (α : Type*) where
  flag : α
  esc : α
  mask : α → α
  flag_ne_esc : flag ≠ esc
  mask_mask : ∀ a, mask (mask a) = a
  mask_flag_ne : mask flag ≠ flag
  mask_esc_ne : mask esc ≠ flag

namespace Stuffing

variable {α : Type*} [DecidableEq α] (S : Stuffing α)

/-- A symbol that must not stand in a stuffed message by itself. -/
def Reserved (a : α) : Prop := a = S.flag ∨ a = S.esc

instance (a : α) : Decidable (S.Reserved a) :=
  inferInstanceAs (Decidable (a = S.flag ∨ a = S.esc))

/-- The stuffed form of one symbol. -/
def stuffSymbol (a : α) : List α := if S.Reserved a then [S.esc, S.mask a] else [a]

/-- The stuffed form of a message. -/
def stuff (message : List α) : List α := message.flatMap S.stuffSymbol

@[simp] theorem stuff_nil : S.stuff [] = [] := rfl

@[simp] theorem stuff_cons (a : α) (message : List α) :
    S.stuff (a :: message) = S.stuffSymbol a ++ S.stuff message := rfl

theorem stuff_append (front rest : List α) :
    S.stuff (front ++ rest) = S.stuff front ++ S.stuff rest :=
  List.flatMap_append ..

theorem flag_notMem_stuffSymbol (a : α) : S.flag ∉ S.stuffSymbol a := by
  unfold stuffSymbol
  split_ifs with h
  · have hmask : S.flag ≠ S.mask a := by
      rcases h with rfl | rfl
      · exact S.mask_flag_ne.symm
      · exact S.mask_esc_ne.symm
    simp [S.flag_ne_esc, hmask]
  · simp only [List.mem_singleton]
    exact fun hflag => h (Or.inl hflag.symm)

/-- The flag never occurs in a stuffed message. -/
theorem flag_notMem_stuff (message : List α) : S.flag ∉ S.stuff message := by
  simp only [stuff, List.mem_flatMap, not_exists, not_and]
  exact fun a _ => S.flag_notMem_stuffSymbol a

/-- A stuffed message is longer by one symbol for each reserved one. -/
theorem length_stuff (message : List α) :
    (S.stuff message).length = message.length + message.countP (fun a => S.Reserved a) := by
  induction message with
  | nil => rfl
  | cons a message ih =>
    rw [stuff_cons, List.length_append, ih, List.countP_cons, List.length_cons, stuffSymbol]
    by_cases h : S.Reserved a <;> simp [h] <;> omega

theorem length_stuff_le (message : List α) :
    (S.stuff message).length ≤ 2 * message.length := by
  have hcount := List.countP_le_length (p := fun a => decide (S.Reserved a)) (l := message)
  rw [length_stuff]
  omega

/-- Scan stuffed symbols from a state that says whether the last symbol read was
an escape. The result is the message read and the state after it; a flag outside
an escape stops the scan. -/
def scan : Bool → List α → Option (List α × Bool)
  | escaped, [] => some ([], escaped)
  | true, a :: rest => (scan false rest).map fun r => (S.mask a :: r.1, r.2)
  | false, a :: rest =>
    if a = S.esc then scan true rest
    else if a = S.flag then none
    else (scan false rest).map fun r => (a :: r.1, r.2)

/-- Scanning the stuffed form of a symbol reads that symbol. -/
theorem scan_stuffSymbol_append (a : α) (rest : List α) :
    S.scan false (S.stuffSymbol a ++ rest) =
      (S.scan false rest).map fun r => (a :: r.1, r.2) := by
  unfold stuffSymbol
  split_ifs with h
  · simp [scan, S.mask_mask]
  · obtain ⟨hflag, hesc⟩ := not_or.mp h
    simp [scan, hflag, hesc]

/-- A scan that starts with a stuffed message reads the message and goes on. -/
theorem scan_stuff_append (message rest : List α) :
    S.scan false (S.stuff message ++ rest) =
      (S.scan false rest).map fun r => (message ++ r.1, r.2) := by
  induction message with
  | nil => cases h : S.scan false rest <;> simp [h]
  | cons a message ih =>
    rw [stuff_cons, List.append_assoc, scan_stuffSymbol_append, ih, Option.map_map]
    rfl

/-- Unstuffing recovers the message and leaves no escape open. -/
theorem scan_stuff (message : List α) : S.scan false (S.stuff message) = some (message, false) := by
  have h := S.scan_stuff_append message []
  rw [List.append_nil] at h
  simpa [scan] using h

/-- Unstuffing never makes a message longer. -/
theorem length_le_of_scan {escaped last : Bool} {stuffed message : List α}
    (h : S.scan escaped stuffed = some (message, last)) : message.length ≤ stuffed.length := by
  induction stuffed generalizing escaped message with
  | nil =>
    cases escaped <;>
      · simp only [scan, Option.some.injEq, Prod.mk.injEq] at h
        simp [← h.1]
  | cons a rest ih =>
    -- A symbol that is kept takes one of the message; an escape takes none.
    have hrest : ∀ b, (S.scan false rest).map (fun r => (b :: r.1, r.2)) = some (message, last) →
        message.length ≤ rest.length + 1 := by
      intro b hb
      obtain ⟨⟨tail, final⟩, hscan, hpair⟩ := Option.map_eq_some_iff.mp hb
      obtain ⟨rfl, rfl⟩ := Prod.mk.inj hpair
      exact Nat.succ_le_succ (ih hscan)
    cases escaped with
    | true => exact hrest _ h
    | false =>
      rw [scan] at h
      split_ifs at h
      · exact Nat.le_succ_of_le (ih h)
      · exact hrest _ h

/-- A scan from this state meets a flag right after an escape, where it takes the
flag for a masked symbol. -/
def EscapesFlag : Bool → List α → Prop
  | _, [] => False
  | true, a :: rest => a = S.flag ∨ EscapesFlag false rest
  | false, a :: rest => if a = S.esc then EscapesFlag true rest else EscapesFlag false rest

instance decidableEscapesFlag : (escaped : Bool) → (stuffed : List α) →
    Decidable (S.EscapesFlag escaped stuffed)
  | _, [] => inferInstanceAs (Decidable False)
  | true, a :: rest =>
    haveI := decidableEscapesFlag false rest
    inferInstanceAs (Decidable (a = S.flag ∨ S.EscapesFlag false rest))
  | false, a :: rest =>
    haveI := decidableEscapesFlag true rest
    haveI := decidableEscapesFlag false rest
    inferInstanceAs (Decidable (if a = S.esc then S.EscapesFlag true rest
      else S.EscapesFlag false rest))

/-- A scan that goes through has met a flag only under an escape. -/
theorem flag_mem_iff_of_scan {escaped : Bool} {stuffed : List α} {read : List α × Bool}
    (h : S.scan escaped stuffed = some read) :
    S.flag ∈ stuffed ↔ S.EscapesFlag escaped stuffed := by
  -- The induction is on what is scanned, from either state.
  induction stuffed generalizing escaped read with
  | nil => simp [EscapesFlag]
  | cons a rest ih =>
    cases escaped with
    | true =>
      obtain ⟨tail, hscan, -⟩ := Option.map_eq_some_iff.mp h
      rw [List.mem_cons, ih hscan, EscapesFlag, eq_comm]
    | false =>
      rw [scan] at h
      split_ifs at h with hesc hflag
      · -- An escape is not a flag.
        have hne : S.flag ≠ a := hesc ▸ S.flag_ne_esc
        rw [List.mem_cons, ih h, EscapesFlag, if_pos hesc]
        exact or_iff_right hne
      · obtain ⟨tail, hscan, -⟩ := Option.map_eq_some_iff.mp h
        rw [List.mem_cons, ih hscan, EscapesFlag, if_neg hesc]
        exact or_iff_right (Ne.symm hflag)

/-- Only a flag stops a scan. -/
theorem flag_mem_of_scan_eq_none {escaped : Bool} {stuffed : List α}
    (h : S.scan escaped stuffed = none) : S.flag ∈ stuffed := by
  induction stuffed generalizing escaped with
  | nil => cases escaped <;> cases h
  | cons a rest ih =>
    cases escaped with
    | true => exact List.mem_cons_of_mem _ (ih (Option.map_eq_none_iff.mp h))
    | false =>
      rw [scan] at h
      split_ifs at h with hesc hflag
      · exact List.mem_cons_of_mem _ (ih h)
      · exact hflag ▸ List.mem_cons_self
      · exact List.mem_cons_of_mem _ (ih (Option.map_eq_none_iff.mp h))

end Stuffing

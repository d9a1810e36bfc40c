/-
# Logs with a reading position

An append-only log and a position in it. Appending moves the end, advancing moves
the position; what has been passed is always the front of the log. A channel that
delivers everything once and in order is a cursor on the log of what was sent.
-/

import Mathlib.Data.List.Infix
import Mathlib.Order.Basic

set_option autoImplicit false

variable {α β : Type*}

/-- A log and a position in it. -/
structure Cursor (α : Type*) where
  log : List α
  pos : ℕ
  pos_le : pos ≤ log.length

namespace Cursor

/-- The empty log. -/
def start : Cursor α := ⟨[], 0, le_rfl⟩

/-- Append an entry at the end of the log. -/
def append (c : Cursor α) (a : α) : Cursor α where
  log := c.log ++ [a]
  pos := c.pos
  pos_le := c.pos_le.trans (by rw [List.length_append]; exact Nat.le_add_right _ _)

/-- Move past the entry at the position. -/
def advance (c : Cursor α) (h : c.pos < c.log.length) : Cursor α where
  log := c.log
  pos := c.pos + 1
  pos_le := h

/-- The entries before the position. -/
def taken (c : Cursor α) : List α := c.log.take c.pos

/-- The entries from the position on. -/
def pending (c : Cursor α) : List α := c.log.drop c.pos

theorem taken_append_pending (c : Cursor α) : c.taken ++ c.pending = c.log :=
  List.take_append_drop ..

@[simp] theorem taken_append (c : Cursor α) (a : α) : (c.append a).taken = c.taken :=
  List.take_append_of_le_length c.pos_le

/-- Advancing adds the entry that was pending first to the entries taken. -/
theorem taken_advance (c : Cursor α) (h : c.pos < c.log.length) :
    (c.advance h).taken = c.taken ++ [c.log[c.pos]] := (List.take_append_getElem h).symm

/-- What was taken, flattened, is a front of everything logged. -/
theorem flatten_taken_prefix (c : Cursor (List α)) : c.taken.flatten <+: c.log.flatten := by
  refine ⟨c.pending.flatten, ?_⟩
  rw [← List.flatten_append, taken_append_pending]

/-- The log with each entry labelled by its index. -/
def labelled (c : Cursor α) (label : ℕ → α → β) : List β := c.log.mapIdx label

@[simp] theorem labelled_append (c : Cursor α) (a : α) (label : ℕ → α → β) :
    (c.append a).labelled label = c.labelled label ++ [label c.log.length a] :=
  List.mapIdx_concat ..

@[simp] theorem length_labelled (c : Cursor α) (label : ℕ → α → β) :
    (c.labelled label).length = c.log.length := List.length_mapIdx ..

end Cursor

/-
# Sessions

A session is a task with its trace and with what it has sent. Two rules serve all
results about sessions: what is said of every await point and of every way to end
is kept by every poll if it is kept from one await point to the next
(`Task.Holds.poll`), and the bytes a session has sent are the frames of the
messages it says it writes (`Session.Balanced`).
-/

import Axsh.Handshake.Task

set_option autoImplicit false

namespace Axsh

/-! ## Invariants of tasks -/

namespace Task

variable {K R : Type}

/-- A task that keeps to what is said of it and of the trace so far: `I` at each
await point, `D` of what is returned, `F` of a failure. -/
def Holds (I : K → List Event → Prop) (D : R → List Event → Prop) (F : List Event → Prop)
    (trace : List Event) : Task K R → Prop
  | .read _ k => I k trace
  | .write _ next => next.Holds I D F trace
  | .flush next => next.Holds I D F trace
  | .done value => D value trace
  | .failed _ => F trace

section Holds

variable {I I' : K → List Event → Prop} {D D' : R → List Event → Prop}
  {F F' : List Event → Prop} {trace : List Event}

theorem Holds.mono (hI : ∀ k, I k trace → I' k trace) (hD : ∀ value, D value trace → D' value trace)
    (hF : F trace → F' trace) {task : Task K R} (h : task.Holds I D F trace) :
    task.Holds I' D' F' trace := by
  induction task with
  | read reader k => exact hI k h
  | write outbox next ih => exact ih h
  | flush next ih => exact ih h
  | done value => exact hD value h
  | failed e => exact hF h

/-- Where a failure is always possible, it is possible now. -/
theorem Holds.fails (hI : ∀ k, I k trace → F trace) (hD : ∀ value, D value trace → F trace)
    {task : Task K R} (h : task.Holds I D F trace) : F trace := by
  induction task with
  | read reader k => exact hI k h
  | write outbox next ih => exact ih h
  | flush next ih => exact ih h
  | done value => exact hD value h
  | failed e => exact h

/-- Past the last await point: the task returns a value with `P`, unless it fails. -/
def Ends (P : R → Prop) : Task K R → Prop
  | .read _ _ => False
  | .write _ next => next.Ends P
  | .flush next => next.Ends P
  | .done value => P value
  | .failed _ => True

theorem Ends.mono {P Q : R → Prop} (hPQ : ∀ value, P value → Q value) {task : Task K R}
    (h : task.Ends P) : task.Ends Q := by
  induction task with
  | read reader k => exact h
  | write outbox next ih => exact ih h
  | flush next ih => exact ih h
  | done value => exact hPQ value h
  | failed e => exact trivial

/-- A task whose trace is that of no await point is past the last one. -/
theorem Holds.ends {P : R → Prop} (hI : ∀ k, ¬ I k trace) (hD : ∀ value, D value trace → P value)
    {task : Task K R} (h : task.Holds I D F trace) : task.Ends P := by
  induction task with
  | read reader k => exact absurd h (hI k)
  | write outbox next ih => exact ih h
  | flush next ih => exact ih h
  | done value => exact hD value h
  | failed e => exact trivial

/-- The rule for polls: if going on from an await point keeps to what is said,
every poll does. -/
theorem Holds.poll {resume : K → Bytes → Act (Task K R)}
    (hI : ∀ k trace, I k trace → F trace) (hD : ∀ value trace, D value trace → F trace)
    (hresume : ∀ k frame trace, I k trace →
      (ofAct (resume k frame)).task.Holds I D F (trace ++ (resume k frame).events))
    {task : Task K R} (h : task.Holds I D F trace) (answer : Answer) :
    (task.poll resume answer).task.Holds I D F
      (trace ++ (task.poll resume answer).events) := by
  have hnil : trace ++ [] = trace := List.append_nil trace
  have hfails := h.fails (fun k => hI k trace) (fun value => hD value trace)
  -- Only a whole frame makes events; every other poll moves on inside the task or fails.
  unfold Task.poll
  split
  · split
    · exact hnil.symm ▸ h
    · exact hnil.symm ▸ h
    · split
      · exact hnil.symm ▸ hfails
      · exact hresume _ _ _ h
  · split
    · exact hnil.symm ▸ h
    · exact hnil.symm ▸ hfails
    · split_ifs
      · exact hnil.symm ▸ hfails
      · exact hnil.symm ▸ h
      · exact hnil.symm ▸ h
  · split
    · exact hnil.symm ▸ h
    · exact hnil.symm ▸ hfails
    · exact hnil.symm ▸ h
  · exact hnil.symm ▸ h

end Holds

end Task

/-! ## Sessions -/

/-- A session: its task, its trace, and the bytes that its stream has taken. -/
structure Session (K R : Type) where
  task : Task K R
  trace : List Event
  sent : Bytes

namespace Session

variable {K R : Type}

/-- A session that begins with a computation. -/
def begin (act : Act (Task K R)) : Session K R where
  task := (Task.ofAct act).task
  trace := act.events
  sent := []

/-- A session after a poll. -/
def after (s : Session K R) (resume : K → Bytes → Act (Task K R)) (answer : Answer) :
    Session K R where
  task := (s.task.poll resume answer).task
  trace := s.trace ++ (s.task.poll resume answer).events
  sent := s.sent ++ (s.task.poll resume answer).taken

end Session

/-! ## What is sent -/

/-- The message that an event says was written. -/
def Event.wire? : Event → Option Bytes
  | .wrote wire => some wire
  | _ => none

/-- The frames of the messages that a trace says were written. -/
def framesOf (trace : List Event) : Bytes := (trace.filterMap Event.wire?).flatMap Hdlc.encode

@[simp] theorem framesOf_nil : framesOf [] = [] := rfl

@[simp] theorem framesOf_append (first second : List Event) :
    framesOf (first ++ second) = framesOf first ++ framesOf second := by
  rw [framesOf, List.filterMap_append, List.flatMap_append, ← framesOf, ← framesOf]

/-- The bytes that a task has still to hand over. -/
def Task.outbox {K R : Type} : Task K R → Bytes
  | .write outbox next => outbox ++ next.outbox
  | .flush next => next.outbox
  | .read _ _ | .done _ | .failed _ => []

/-- A computation that ends in a task with the frames of what it says it writes. -/
def Act.Queues {K R : Type} (act : Act (Task K R)) : Prop :=
  match act.result with
  | .ok task => task.outbox = framesOf act.events
  | .error _ => framesOf act.events = []

theorem Act.Queues.outbox_eq {K R : Type} {act : Act (Task K R)} (h : act.Queues) :
    (Task.ofAct act).task.outbox = framesOf act.events := by
  match act, h with
  | ⟨_, .ok _⟩, h => exact h
  | ⟨_, .error _⟩, h => exact h.symm

/-- What a session sent, and has still to send, is a front of the frames in its
trace; as long as it has not failed, it is all of them. -/
structure Session.Balanced {K R : Type} (s : Session K R) : Prop where
  sent_prefix : s.sent ++ s.task.outbox <+: framesOf s.trace
  sent_eq : (∀ e, s.task ≠ .failed e) → s.sent ++ s.task.outbox = framesOf s.trace

namespace Session

variable {K R : Type}

theorem balanced_begin {act : Act (Task K R)} (h : act.Queues) : (begin act).Balanced := by
  have heq : (begin act).sent ++ (begin act).task.outbox = framesOf (begin act).trace := h.outbox_eq
  exact ⟨heq ▸ List.prefix_refl _, fun _ => heq⟩

/-- What a session has sent is a front of the frames in its trace. -/
theorem Balanced.sent {s : Session K R} (h : s.Balanced) : s.sent <+: framesOf s.trace :=
  (List.prefix_append _ _).trans h.sent_prefix

/-- A poll moves bytes from the outbox to the stream, and adds to both sides what
the session says it writes. -/
theorem poll_outbox {resume : K → Bytes → Act (Task K R)} (h : ∀ k frame, (resume k frame).Queues)
    (task : Task K R) (answer : Answer) :
    (∃ e, (task.poll resume answer).task = .failed e ∧ (task.poll resume answer).taken = [] ∧
      framesOf (task.poll resume answer).events = []) ∨
    (task.poll resume answer).taken ++ (task.poll resume answer).task.outbox =
      task.outbox ++ framesOf (task.poll resume answer).events := by
  -- A failed poll has taken nothing and says it writes nothing. In any other, what leaves the
  -- outbox is what the stream took.
  unfold Task.poll
  split
  · split
    · exact .inr rfl
    · exact .inr rfl
    · split
      · exact .inl ⟨_, rfl, rfl, rfl⟩
      · exact .inr (h _ _).outbox_eq
  · rename_i outbox next result
    split
    · exact .inr (List.append_nil _).symm
    · exact .inl ⟨_, rfl, rfl, rfl⟩
    · rename_i n
      split_ifs with hzero hall
      · exact .inl ⟨_, rfl, rfl, rfl⟩
      · exact .inr (List.append_nil _).symm
      · right
        change outbox.take n ++ (outbox.drop n ++ next.outbox) = outbox ++ next.outbox ++ []
        rw [← List.append_assoc, List.take_append_drop, List.append_nil]
  · split
    · exact .inr (List.append_nil _).symm
    · exact .inl ⟨_, rfl, rfl, rfl⟩
    · exact .inr (List.append_nil _).symm
  · exact .inr (List.append_nil _).symm

theorem Balanced.after {s : Session K R} (hs : s.Balanced) {resume : K → Bytes → Act (Task K R)}
    (h : ∀ k frame, (resume k frame).Queues) (answer : Answer) :
    (s.after resume answer).Balanced := by
  rcases poll_outbox h s.task answer with ⟨e, htask, htaken, hframes⟩ | heq
  · have hfront := (List.prefix_append s.sent s.task.outbox).trans hs.sent_prefix
    refine ⟨?_, fun hfailed => absurd htask (hfailed e)⟩
    simp only [Session.after, htask, htaken, Task.outbox, List.append_nil, framesOf_append, hframes]
    exact hfront
  · have heq' : (s.after resume answer).sent ++ (s.after resume answer).task.outbox =
        (s.sent ++ s.task.outbox) ++ framesOf (s.task.poll resume answer).events := by
      rw [List.append_assoc, ← heq, ← List.append_assoc]
      rfl
    have htrace : framesOf (s.after resume answer).trace =
        framesOf s.trace ++ framesOf (s.task.poll resume answer).events := framesOf_append ..
    -- A session that had failed before stays as it was.
    by_cases hfailed : ∃ e, s.task = .failed e
    · obtain ⟨e, hfailed⟩ := hfailed
      have hidle : s.task.poll resume answer = ⟨[], [], .failed e⟩ := by
        rw [hfailed]
        rfl
      rw [hidle] at heq' htrace
      refine ⟨?_, fun hne => absurd (congrArg Polled.task hidle) (hne e)⟩
      rw [heq', htrace]
      simpa using hs.sent_prefix
    · have hall := hs.sent_eq (not_exists.mp hfailed)
      rw [hall, ← htrace] at heq'
      exact ⟨heq' ▸ List.prefix_refl _, fun _ => heq'⟩

end Session

end Axsh

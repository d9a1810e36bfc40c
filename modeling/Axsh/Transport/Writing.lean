/-
# What a write does

Draining moves bytes from the front of the write buffer to the underlying stream
and touches nothing else (`Drains`). A payload is queued only into an empty
buffer, so an operation either drains, or hands over everything that was unsent
and leaves exactly one new frame (`Queues`).
-/

import Axsh.Transport

set_option autoImplicit false

namespace Axsh.PayloadStream

variable {C : Crypto}

/-- The queued bytes that the underlying stream has not taken. -/
def unsent (self : PayloadStream C) : Bytes := self.writeBuffer.drop self.writeOffset

/-- The wire form of a payload packet, signed with the signer's next counter. -/
def payloadWire (signer : PacketSign C) (data : Bytes) : Bytes :=
  packetTypePayload :: (signer.sign data).1

/-- The stream once `data` is signed and its frame is the write buffer. -/
def queued (self : PayloadStream C) (data : Bytes) : PayloadStream C :=
  { self with
    packetSign := (self.packetSign.sign data).2
    writeBuffer := Hdlc.encode (payloadWire self.packetSign data)
    writeOffset := 0 }

theorem queuePayload_eq (self : PayloadStream C) (data : Bytes) :
    self.queuePayload data = .ok (self.queued data) := rfl

/-- The underlying stream took `taken` from the front of the unsent bytes, and
nothing but the write buffer changed. -/
structure Drains (before next : PayloadStream C) (taken : Bytes) : Prop where
  frame : next = { before with writeBuffer := next.writeBuffer, writeOffset := next.writeOffset }
  bounded : next.writeOffset ≤ next.writeBuffer.length
  unsent_eq : before.unsent = taken ++ next.unsent

/-- Everything unsent was taken, and then the frame of `data` was queued. -/
structure Queues (before next : PayloadStream C) (taken data : Bytes) : Prop where
  next_eq : next = before.queued data
  taken_eq : taken = before.unsent

/-- A drain returns `Ok` only when nothing is left, and fails only when the
underlying stream fails or takes nothing. -/
structure DrainOutcome (before : PayloadStream C) (answers : List WriteResult)
    (out : Written C Unit) : Prop where
  drains : Drains before out.stream out.taken
  ready : out.result = .ready (.ok ()) → out.stream.unsent = []
  error : ∀ e, out.result = .ready (.error e) →
    (∃ kind message, e = .error kind message ∧ .error kind message ∈ answers) ∨
      e = .error .writeZero "failed to write framed payload" ∧ .wrote 0 ∈ answers

section Drain

variable {self : PayloadStream C}

/-- A drain signs nothing. -/
theorem Drains.packetSign {next : PayloadStream C} {taken : Bytes} (h : Drains self next taken) :
    next.packetSign = self.packetSign := by
  rw [h.frame]

/-- Queueing signs the payload. -/
theorem Queues.packetSign {next : PayloadStream C} {taken data : Bytes}
    (h : Queues self next taken data) : next.packetSign = (self.packetSign.sign data).2 := by
  rw [h.next_eq]
  rfl

theorem Drains.refl (h : self.writeOffset ≤ self.writeBuffer.length) : Drains self self [] :=
  ⟨rfl, h, rfl⟩

/-- A drained buffer is cleared. -/
theorem clearDrained_eq (h : self.writeOffset ≤ self.writeBuffer.length)
    (hdone : ¬ self.writeOffset < self.writeBuffer.length) :
    self.clearDrained = { self with writeBuffer := [], writeOffset := 0 } :=
  if_pos (h.antisymm (not_lt.mp hdone))

theorem drains_clearDrained (h : self.writeOffset ≤ self.writeBuffer.length)
    (hdone : ¬ self.writeOffset < self.writeBuffer.length) :
    Drains self self.clearDrained [] := by
  rw [clearDrained_eq h hdone]
  refine ⟨rfl, le_rfl, ?_⟩
  rw [unsent, List.drop_of_length_le (not_lt.mp hdone)]
  rfl

/-- Taking some of what is offered, and draining on from there. -/
theorem Drains.after_wrote {next : PayloadStream C} {taken : Bytes} {written : ℕ}
    (h : Drains { self with writeOffset := self.writeOffset + written } next taken) :
    Drains self next (self.unsent.take written ++ taken) := by
  refine ⟨h.frame, h.bounded, ?_⟩
  have htail := h.unsent_eq
  simp only [unsent, ← List.drop_drop] at htail ⊢
  rw [List.append_assoc, ← htail, List.take_append_drop]

theorem drainOutcome_done (h : self.writeOffset ≤ self.writeBuffer.length)
    (hdone : ¬ self.writeOffset < self.writeBuffer.length) (answers rest : List WriteResult) :
    DrainOutcome self answers
      { stream := self.clearDrained, taken := [], rest, result := .ready (.ok ()) } := by
  refine ⟨drains_clearDrained h hdone, fun _ => ?_, nofun⟩
  rw [clearDrained_eq h hdone]
  rfl

/-- What `poll_drain_write_buffer` does. -/
theorem drainOutcome (h : self.writeOffset ≤ self.writeBuffer.length)
    (answers : List WriteResult) :
    DrainOutcome self answers (self.pollDrainWriteBuffer answers) := by
  induction answers generalizing self with
  | nil =>
    rw [pollDrainWriteBuffer]
    split_ifs with hmore
    · exact ⟨.refl h, nofun, nofun⟩
    · exact drainOutcome_done h hmore _ _
  | cons answer rest ih =>
    rw [pollDrainWriteBuffer]
    split_ifs with hmore
    · -- There is something to offer, so a stream that takes nothing of it has answered zero.
      have hoffered : 0 < (self.writeBuffer.drop self.writeOffset).length := by
        rw [List.length_drop]
        omega
      match answer with
      | .pending => exact ⟨.refl h, nofun, nofun⟩
      | .error kind message =>
        refine ⟨.refl h, nofun, fun e he => .inl ⟨kind, message, ?_, List.mem_cons_self⟩⟩
        exact (Except.error.inj (Poll.ready.inj he)).symm
      | .wrote n =>
        by_cases hzero : min n (self.writeBuffer.drop self.writeOffset).length = 0
        · obtain rfl : n = 0 := by omega
          simp only [hzero, if_true]
          refine ⟨.refl h, nofun, fun e he => .inr ⟨?_, List.mem_cons_self⟩⟩
          exact (Except.error.inj (Poll.ready.inj he)).symm
        · -- The loop goes on behind what was taken.
          simp only [hzero, if_false]
          have hbounded : self.writeOffset + min n (self.writeBuffer.drop self.writeOffset).length ≤
              self.writeBuffer.length := by
            rw [List.length_drop]
            omega
          have hnext := @ih { self with
            writeOffset := self.writeOffset +
              min n (self.writeBuffer.drop self.writeOffset).length } hbounded
          refine ⟨hnext.drains.after_wrote, hnext.ready, fun e he => ?_⟩
          rcases hnext.error e he with ⟨kind, message, rfl, hmem⟩ | ⟨rfl, hmem⟩
          · exact .inl ⟨kind, message, rfl, List.mem_cons_of_mem _ hmem⟩
          · exact .inr ⟨rfl, List.mem_cons_of_mem _ hmem⟩
    · exact drainOutcome_done h hmore _ _

/-- Queueing after a drain that left nothing is queueing at once. -/
theorem Drains.queues {next : PayloadStream C} {taken : Bytes} (h : Drains self next taken)
    (hempty : next.unsent = []) (data : Bytes) : Queues self (next.queued data) taken data := by
  refine ⟨?_, ?_⟩
  · rw [h.frame]
    rfl
  · rw [h.unsent_eq, hempty, List.append_nil]

end Drain

/-- The payload that a write call has signed, by what it was given and what it
returned. -/
def signedByWrite (buf : Bytes) : Poll (Res ℕ) → Option Bytes
  | .ready (.ok _) => if buf.isEmpty then none else some buf
  | _ => none

/-- The payload that a keepalive call has signed. -/
def signedByKeepalive : Poll (Res Unit) → Option Bytes
  | .ready (.ok _) => some []
  | _ => none

/-- What an operation does to a stream that signs at most one payload in it. -/
def Sends (before next : PayloadStream C) (taken : Bytes) : Option Bytes → Prop
  | none => Drains before next taken
  | some data => Queues before next taken data

section Operations

variable {self : PayloadStream C} (h : self.writeOffset ≤ self.writeBuffer.length)

include h

/-- `poll_write_payload` drains, or signs and queues its buffer; it returns the
length of the buffer. -/
theorem pollWritePayload_spec (buf : Bytes) (answers : List WriteResult) :
    Sends self (self.pollWritePayload buf answers).stream
        (self.pollWritePayload buf answers).taken
        (signedByWrite buf (self.pollWritePayload buf answers).result) ∧
      ∀ n, (self.pollWritePayload buf answers).result = .ready (.ok n) → n = buf.length := by
  obtain ⟨hdrains, hready, -⟩ := drainOutcome h answers
  rw [pollWritePayload]
  match hresult : (self.pollDrainWriteBuffer answers).result with
  | .pending => exact ⟨hdrains, nofun⟩
  | .ready (.error e) => exact ⟨hdrains, nofun⟩
  | .ready (.ok ()) =>
    -- Drained: an empty buffer is signed nothing for, any other one is one payload.
    by_cases hbuf : buf.isEmpty
    · simp only [hbuf, if_true, signedByWrite]
      refine ⟨hdrains, fun n hn => ?_⟩
      rw [List.isEmpty_iff.mp hbuf]
      simpa using hn.symm
    · simp only [hbuf, signedByWrite, queuePayload_eq]
      refine ⟨hdrains.queues (hready hresult) buf, fun n hn => ?_⟩
      simpa using hn.symm

/-- `poll_queue_keepalive` drains, or signs and queues an empty payload. -/
theorem pollQueueKeepalive_spec (answers : List WriteResult) :
    Sends self (self.pollQueueKeepalive answers).stream
      (self.pollQueueKeepalive answers).taken
      (signedByKeepalive (self.pollQueueKeepalive answers).result) := by
  obtain ⟨hdrains, hready, -⟩ := drainOutcome h answers
  rw [pollQueueKeepalive]
  match hresult : (self.pollDrainWriteBuffer answers).result with
  | .pending => exact hdrains
  | .ready (.error e) => exact hdrains
  | .ready (.ok ()) => exact hdrains.queues (hready hresult) []

/-- `poll_flush_payload` and `poll_shutdown_payload` drain. -/
theorem pollDrainThen_spec (answers : List WriteResult) (underlying : Poll (Res Unit)) :
    Drains self (self.pollDrainThen answers underlying).stream
        (self.pollDrainThen answers underlying).taken ∧
      ((self.pollDrainThen answers underlying).result = .ready (.ok ()) →
        (self.pollDrainThen answers underlying).stream.unsent = []) := by
  obtain ⟨hdrains, hready, -⟩ := drainOutcome h answers
  rw [pollDrainThen]
  match hresult : (self.pollDrainWriteBuffer answers).result with
  | .pending => exact ⟨hdrains, nofun⟩
  | .ready (.error e) => exact ⟨hdrains, nofun⟩
  | .ready (.ok ()) => exact ⟨hdrains, fun _ => hready hresult⟩

end Operations

section Errors

variable {self : PayloadStream C} {answers : List WriteResult} {e : Failure}

/-- An operation that drains first fails where the drain does, or in what it does next. -/
theorem error_of_drained {α : Type} {drained : Written C Unit} {next : Written C α}
    (h : (match drained.result with
      | .pending => { drained with result := .pending }
      | .ready (.error e) => { drained with result := .ready (.error e) }
      | .ready (.ok ()) => next : Written C α).result = .ready (.error e)) :
    drained.result = .ready (.error e) ∨ next.result = .ready (.error e) := by
  split at h
  · cases h
  · rename_i e' hresult
    obtain rfl := Except.error.inj (Poll.ready.inj h)
    exact .inl hresult
  · exact .inr h

/-- A write fails only when its drain does. -/
theorem pollWritePayload_error {buf : Bytes}
    (h : (self.pollWritePayload buf answers).result = .ready (.error e)) :
    (self.pollDrainWriteBuffer answers).result = .ready (.error e) := by
  rcases error_of_drained h with hdrain | hnext
  · exact hdrain
  · -- Behind the drain it queues the payload, which does not fail.
    simp only [queuePayload_eq] at hnext
    split_ifs at hnext
    all_goals cases hnext

/-- A keepalive fails only when its drain does. -/
theorem pollQueueKeepalive_error
    (h : (self.pollQueueKeepalive answers).result = .ready (.error e)) :
    (self.pollDrainWriteBuffer answers).result = .ready (.error e) := by
  rcases error_of_drained h with hdrain | hnext
  · exact hdrain
  · simp only [queuePayload_eq] at hnext
    cases hnext

/-- A flush or shutdown fails only when its drain or the underlying call does. -/
theorem pollDrainThen_error {underlying : Poll (Res Unit)}
    (h : (self.pollDrainThen answers underlying).result = .ready (.error e)) :
    (self.pollDrainWriteBuffer answers).result = .ready (.error e) ∨
      underlying = .ready (.error e) :=
  error_of_drained h

end Errors

end Axsh.PayloadStream

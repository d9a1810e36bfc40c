/-
# The idle cut-off

A packet verifier refuses every packet once more than `MAX_CONNECTION_IDLE` has passed
since it last accepted one. Its deadline counts from the moment at which the last
acceptance was recorded, or from its creation, and nothing that it refuses moves the
deadline (`verifyAll_recorded`). With a clock that does not run backwards a deadline
that has been missed once stays missed.
-/

import Axsh.Crypto.Sample

set_option autoImplicit false

namespace Axsh.PacketVerify

/-- A call of `verify`: the verdicts and the input it gets, and its two clock readings,
of the idle check and of the success. -/
structure VerifyCall where
  V : Verifier
  data : Bytes
  now : Instant
  later : Instant

/-- Calls of `verify` on one verifier: what they return, and the verifier after them. -/
def verifyAll (self : PacketVerify) : List VerifyCall → Res (List (Option Bytes) × PacketVerify)
  | [] => .ok ([], self)
  | call :: calls => do
    let (returned, next) ← self.verify call.V call.data call.now call.later
    let (more, last) ← next.verifyAll calls
    return (returned :: more, last)

/-- The clock readings of some calls, in the order in which they are made. -/
def readings (calls : List VerifyCall) : List Instant :=
  calls.flatMap fun call => [call.now, call.later]

/-- The clock does not run backwards from the creation of the verifier on. -/
def ClockMonotone (created : Instant) (calls : List VerifyCall) : Prop :=
  (created :: readings calls).Pairwise (· ≤ ·)

/-- When the last acceptance was recorded, by what the calls have returned; the creation
of the verifier counts as the first. -/
def lastRecorded (created : Instant) : List (VerifyCall × Option Bytes) → Instant
  | [] => created
  | (call, some _) :: calls => lastRecorded call.later calls
  | (_, none) :: calls => lastRecorded created calls

variable {self : PacketVerify}

/-- After the deadline a call refuses its input and changes nothing. -/
theorem verify_expired (call : VerifyCall) (h : self.lastSuccess + maxConnectionIdle < call.now) :
    self.verify call.V call.data call.now call.later = .ok (none, self) := by
  rcases self.verify_eq call.V call.data call.now call.later with
    ⟨sig, msg, -, ⟨-, hidle, -⟩, -⟩ | ⟨-, hrefused⟩
  · exact absurd (Nat.sub_le_iff_le_add'.mp hidle) (not_le.mpr h)
  · exact hrefused

theorem verifyAll_expired (calls : List VerifyCall)
    (h : ∀ call ∈ calls, self.lastSuccess + maxConnectionIdle < call.now) :
    self.verifyAll calls = .ok (List.replicate calls.length none, self) := by
  induction calls with
  | nil => rfl
  | cons call calls ih =>
    have hcalls := ih fun other hmem => h other (List.mem_cons_of_mem _ hmem)
    rw [verifyAll, verify_expired call (h call List.mem_cons_self), ok_bind]
    simp only [hcalls, ok_bind]
    rfl

/-- A call returns. It accepts its input before the deadline, which from then on counts
from the second clock reading, or it refuses it and leaves the verifier as it is. -/
theorem verify_cases (self : PacketVerify) (call : VerifyCall) :
    ∃ returned next, self.verify call.V call.data call.now call.later = .ok (returned, next) ∧
      (returned ≠ none → call.now ≤ self.lastSuccess + maxConnectionIdle ∧
        next.lastSuccess = call.later) ∧
      (returned = none → next = self) := by
  rcases self.verify_eq call.V call.data call.now call.later with
    ⟨sig, msg, -, ⟨-, hidle, -⟩, haccepted⟩ | ⟨-, hrefused⟩
  · refine ⟨some msg, _, haccepted, fun _ => ⟨?_, rfl⟩, fun hnone => by cases hnone⟩
    exact Nat.sub_le_iff_le_add'.mp hidle
  · exact ⟨none, self, hrefused, fun hsome => absurd rfl hsome, fun _ => rfl⟩

/-- Whatever the calls, the deadline counts from the last acceptance that they show. -/
theorem verifyAll_recorded (self : PacketVerify) (calls : List VerifyCall) :
    ∃ returned last, self.verifyAll calls = .ok (returned, last) ∧
      returned.length = calls.length ∧
      last.lastSuccess = lastRecorded self.lastSuccess (calls.zip returned) := by
  induction calls generalizing self with
  | nil => exact ⟨[], self, rfl, rfl, rfl⟩
  | cons call calls ih =>
    obtain ⟨returned, next, hcall, haccepted, hrefused⟩ := verify_cases self call
    obtain ⟨more, last, hcalls, hlength, hlast⟩ := ih next
    refine ⟨returned :: more, last, ?_, congrArg Nat.succ hlength, ?_⟩
    · rw [verifyAll, hcall, ok_bind]
      simp only [hcalls, ok_bind]
      rfl
    · rw [hlast, List.zip_cons_cons]
      cases returned with
      | none => rw [hrefused rfl, lastRecorded]
      | some msg => rw [(haccepted (by simp)).2, lastRecorded]

/-- Later calls read a later clock. -/
theorem ClockMonotone.now_le {created : Instant} {front back : List VerifyCall} {call : VerifyCall}
    (h : ClockMonotone created (front ++ call :: back)) :
    ∀ other ∈ back, call.now ≤ other.now := by
  intro other hmem
  have hreadings : readings (front ++ call :: back) =
      readings front ++ call.now :: call.later :: readings back := by
    simp [readings]
  rw [ClockMonotone, hreadings, ← List.cons_append] at h
  have hcall := (List.pairwise_append.mp h).2.1
  apply (List.pairwise_cons.mp hcall).1
  apply List.mem_cons_of_mem
  exact List.mem_flatMap.mpr ⟨other, hmem, List.mem_cons_self⟩

/-- In any run of a new verifier: a packet is accepted only if its idle check comes at
most `MAX_CONNECTION_IDLE` after the last acceptance was recorded, or after the creation;
a refused input leaves the verifier as it is, and so the deadline; and after a call that
misses the deadline that call and all later ones return nothing. -/
theorem idle_cutoff (publicKey : Fixed ed25519PublicKeyLen) (created : Instant)
    (calls : List VerifyCall) (hclock : ClockMonotone created calls) :
    ∀ front call back, calls = front ++ call :: back →
      ∃ returned self, (PacketVerify.new publicKey created).verifyAll front = .ok (returned, self) ∧
        self.lastSuccess = lastRecorded created (front.zip returned) ∧
        ∃ result next, self.verify call.V call.data call.now call.later = .ok (result, next) ∧
          (result ≠ none → call.now ≤ self.lastSuccess + maxConnectionIdle) ∧
          (result = none → next = self) ∧
          (self.lastSuccess + maxConnectionIdle < call.now →
            result = none ∧ ∃ more last, next.verifyAll back = .ok (more, last) ∧
              more.length = back.length ∧ ∀ later ∈ more, later = none) := by
  rintro front call back rfl
  obtain ⟨returned, self, hfront, -, hrecorded⟩ :=
    verifyAll_recorded (PacketVerify.new publicKey created) front
  obtain ⟨result, next, hcall, haccepted, hrefused⟩ := verify_cases self call
  refine ⟨returned, self, hfront, hrecorded, result, next, hcall,
    fun hsome => (haccepted hsome).1, hrefused, fun hmissed => ?_⟩
  obtain ⟨rfl, rfl⟩ := Prod.mk.inj (Except.ok.inj (hcall.symm.trans (verify_expired call hmissed)))
  have hback := verifyAll_expired back fun other hmem =>
    hmissed.trans_le (hclock.now_le other hmem)
  exact ⟨rfl, _, _, hback, List.length_replicate, fun later hmem => List.eq_of_mem_replicate hmem⟩

/-- An empty input, at the creation of the verifier. -/
def emptyCall : VerifyCall := ⟨.acceptAll, [], 0, 0⟩

/-- A packet when the deadline has passed. -/
def lateCall : VerifyCall :=
  ⟨.acceptAll, List.replicate 64 0, maxConnectionIdle + 1, maxConnectionIdle + 1⟩

/-- The packet is refused, though any signature would be accepted. -/
theorem idle_cutoff_sample :
    let verifier := PacketVerify.new (Crypto.sample.ed25519PublicKey (0 : UInt8)) 0
    verifier.verify lateCall.V lateCall.data lateCall.now lateCall.later =
      .ok (none, verifier) := by
  intro verifier
  have hclock : ClockMonotone 0 [emptyCall, lateCall] := by
    simp [ClockMonotone, readings, emptyCall, lateCall]
  have hfirst : verifier.verifyAll [emptyCall] = .ok ([none], verifier) := rfl
  obtain ⟨returned, self, hfront, -, result, next, hcall, -, hrefused, hmissed⟩ :=
    idle_cutoff (Crypto.sample.ed25519PublicKey (0 : UInt8)) 0 _ hclock [emptyCall] lateCall [] rfl
  obtain ⟨-, rfl⟩ := Prod.mk.inj (Except.ok.inj (hfirst.symm.trans hfront))
  obtain ⟨rfl, -⟩ := hmissed (by decide)
  obtain rfl := hrefused rfl
  exact hcall

end Axsh.PacketVerify

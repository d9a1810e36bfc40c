/-
# Sessions and whole frames

A task that reads a frame goes on with it when the last of its bytes comes, and a
task that sends one goes on when the stream has taken all of it and is flushed.
-/

import Axsh.Handshake.Session

set_option autoImplicit false

namespace Axsh

open Hdlc (AsyncFrameReader)

variable {K R : Type} {resume : K → Bytes → Act (Task K R)}

namespace Task

/-- A byte of a frame that fits, other than its last one, is kept. -/
theorem poll_within {wire seen later : Bytes} {byte : UInt8} {k : K}
    (hsize : (Hdlc.encode wire).length ≤ Hdlc.maxFrameSize)
    (hsplit : seen ++ byte :: later = Hdlc.encode wire) (hlater : later ≠ []) :
    (Task.read (AsyncFrameReader.holding seen) k).poll resume (.read (.byte byte)) =
      ⟨[], [], .read (AsyncFrameReader.holding (seen ++ [byte])) k⟩ := by
  rw [poll, AsyncFrameReader.readOne_within hsize hsplit hlater]

/-- With the last byte of a frame that fits, the function goes on. -/
theorem poll_last {wire seen : Bytes} {byte : UInt8} {k : K}
    (hsize : (Hdlc.encode wire).length ≤ Hdlc.maxFrameSize)
    (hsplit : seen ++ [byte] = Hdlc.encode wire) :
    (Task.read (AsyncFrameReader.holding seen) k).poll resume (.read (.byte byte)) =
      ofAct (resume k (Hdlc.encode wire)) := by
  rw [poll, AsyncFrameReader.readOne_last hsize hsplit]
  rfl

/-- A poll that reads writes nothing. -/
theorem poll_read_taken (reader : AsyncFrameReader) (k : K) (answer : Hdlc.ReadResult) :
    ((Task.read reader k : Task K R).poll resume (.read answer)).taken = [] := by
  rw [poll]
  split
  · rfl
  · rfl
  · split <;> rfl

/-- The stream takes some bytes of a message, but not all. -/
theorem poll_write_some {outbox : Bytes} {n : ℕ} {next : Task K R} (hpos : 0 < n)
    (hlt : n < outbox.length) :
    (Task.write outbox next).poll resume (.write (.wrote n)) =
      ⟨[], outbox.take n, .write (outbox.drop n) next⟩ := by
  have hmin : min n outbox.length ≠ 0 := by omega
  have hdrop : outbox.drop n ≠ [] := by
    intro hnil
    exact absurd (List.drop_eq_nil_iff.mp hnil) hlt.not_ge
  rw [poll]
  simp only [hmin, hdrop, if_false]

/-- The stream takes all that is left of a message. -/
theorem poll_write_all {outbox : Bytes} {n : ℕ} {next : Task K R} (hne : outbox ≠ [])
    (hle : outbox.length ≤ n) :
    (Task.write outbox next).poll resume (.write (.wrote n)) = ⟨[], outbox, next⟩ := by
  have hmin : min n outbox.length ≠ 0 := by
    have hpos := List.length_pos_iff.mpr hne
    omega
  have hdrop : outbox.drop n = [] := List.drop_eq_nil_of_le hle
  rw [poll]
  simp only [hmin, hdrop, if_false, if_true]

end Task

/-! ## Handshake messages fit -/

theorem fits_helloWire (hello : ServerHello) :
    (Hdlc.encode (helloWire hello)).length ≤ Hdlc.maxFrameSize :=
  Hdlc.length_encode_le_max (by simp [helloWire])

theorem fits_signedHelloWire {signature : Bytes} {quantumInsecure : Bool}
    (h : signature.length = connSignatureLen quantumInsecure) (hello : ClientHello) :
    (Hdlc.encode (signedHelloWire signature hello)).length ≤ Hdlc.maxFrameSize := by
  apply Hdlc.length_encode_le_max
  have hle := connSignatureLen_le quantumInsecure
  rw [signedHelloWire, List.length_cons, List.length_append, length_encodeClientHello, h]
  omega

/-! ## Whole frames -/

/-- The answers of a stream that gives the frame of a message. -/
def frameAnswers (wire : Bytes) : List Answer :=
  (Hdlc.encode wire).map fun byte => .read (.byte byte)

/-- The answers of a stream that takes the frame of a message and is flushed. -/
def sendAnswers (wire : Bytes) : List Answer :=
  [.write (.wrote (Hdlc.encode wire).length), .flush (.ready (.ok ()))]

namespace Session

/-- A session after a number of polls. -/
def afterAll (s : Session K R) (resume : K → Bytes → Act (Task K R)) (answers : List Answer) :
    Session K R :=
  answers.foldl (fun s answer => s.after resume answer) s

theorem afterAll_cons (s : Session K R) (answer : Answer) (answers : List Answer) :
    s.afterAll resume (answer :: answers) = (s.after resume answer).afterAll resume answers := rfl

theorem afterAll_append (s : Session K R) (first second : List Answer) :
    s.afterAll resume (first ++ second) = (s.afterAll resume first).afterAll resume second :=
  List.foldl_append

/-- A session that reads a frame goes on with it. -/
theorem afterAll_read {wire seen later : Bytes} {k : K} {trace : List Event} {sent : Bytes}
    (hsize : (Hdlc.encode wire).length ≤ Hdlc.maxFrameSize) (hlater : later ≠ [])
    (hsplit : seen ++ later = Hdlc.encode wire) :
    (⟨.read (AsyncFrameReader.holding seen) k, trace, sent⟩ : Session K R).afterAll resume
        (later.map fun byte => .read (.byte byte)) =
      ⟨(Task.ofAct (resume k (Hdlc.encode wire))).task,
        trace ++ (resume k (Hdlc.encode wire)).events, sent⟩ := by
  -- The reader holds what it has seen of the frame; the last byte ends the frame and the poll.
  induction later generalizing seen with
  | nil => exact absurd rfl hlater
  | cons byte later ih =>
    rw [List.map_cons, afterAll_cons]
    by_cases hlast : later = []
    · subst hlast
      rw [Session.after, Task.poll_last hsize hsplit]
      simp [afterAll, Task.ofAct]
    · rw [Session.after, Task.poll_within hsize hsplit hlast]
      simp only [List.append_nil]
      exact ih hlast (by rw [List.append_assoc, List.singleton_append, hsplit])

/-- A session that starts to read a frame goes on with it. -/
theorem afterAll_frame {wire : Bytes} {k : K} {trace : List Event} {sent : Bytes}
    (hsize : (Hdlc.encode wire).length ≤ Hdlc.maxFrameSize) :
    (⟨.readFrame k, trace, sent⟩ : Session K R).afterAll resume (frameAnswers wire) =
      ⟨(Task.ofAct (resume k (Hdlc.encode wire))).task,
        trace ++ (resume k (Hdlc.encode wire)).events, sent⟩ := by
  have hne : Hdlc.encode wire ≠ [] := by
    rw [Hdlc.encode_eq]
    exact List.cons_ne_nil _ _
  have hsplit : [] ++ Hdlc.encode wire = Hdlc.encode wire := rfl
  exact afterAll_read hsize hne hsplit

/-- A session that sends a message goes on after it. -/
theorem afterAll_send {wire : Bytes} {next : Task K R} {trace : List Event} {sent : Bytes} :
    (⟨.send wire next, trace, sent⟩ : Session K R).afterAll resume (sendAnswers wire) =
      ⟨next, trace, sent ++ Hdlc.encode wire⟩ := by
  have hne : Hdlc.encode wire ≠ [] := by
    rw [Hdlc.encode_eq]
    exact List.cons_ne_nil _ _
  rw [sendAnswers, afterAll_cons, Session.after, Task.send, Task.poll_write_all hne le_rfl]
  simp [afterAll, Session.after, Task.poll]

end Session

end Axsh

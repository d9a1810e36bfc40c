/-
# One message over a faithful stream

Two tasks are joined by a first-in first-out byte stream, which may cut and join
what is written in any way. While one of them sends a message and the other one
waits for it, every byte of the frame is in one place: with the sender, in the
stream, or with the reader (`Passing`). The reader takes the frame and not one byte
of what comes behind it.
-/

import Axsh.Handshake.Drive

set_option autoImplicit false

namespace Axsh

open Hdlc (AsyncFrameReader)

variable {K R K' R' : Type}

/-- The answers that a faithful stream, with the bytes `incoming` ready to be read,
gives to the poll that a task makes; and the bytes that are left to be read. -/
inductive Faithful (incoming : Bytes) : Task K R → Answer → Bytes → Prop
  | readPending (reader : AsyncFrameReader) (k : K) :
      Faithful incoming (.read reader k) (.read .pending) incoming
  | readByte (reader : AsyncFrameReader) (k : K) (byte : UInt8) (rest : Bytes)
      (h : incoming = byte :: rest) :
      Faithful incoming (.read reader k) (.read (.byte byte)) rest
  | writePending (outbox : Bytes) (next : Task K R) :
      Faithful incoming (.write outbox next) (.write .pending) incoming
  | wrote (outbox : Bytes) (next : Task K R) (n : ℕ) (h : 0 < n) :
      Faithful incoming (.write outbox next) (.write (.wrote n)) incoming
  | flushPending (next : Task K R) : Faithful incoming (.flush next) (.flush .pending) incoming
  | flushed (next : Task K R) :
      Faithful incoming (.flush next) (.flush (.ready (.ok ()))) incoming

/-- A task that is sending a message and then goes on as `next`, with the bytes of
the message that the stream has not taken. -/
inductive Sending (next : Task K R) : Task K R → Bytes → Prop
  | writing (outbox : Bytes) (h : outbox ≠ []) : Sending next (.write outbox (.flush next)) outbox
  | flushing : Sending next (.flush next) []
  | sent : Sending next next []

/-- A task that waits for a frame, with the bytes of it that it has read. It may have
to flush the message before that. -/
inductive Waiting (k : K) : Task K R → Bytes → Prop
  | flushing : Waiting k (.flush (.readFrame k)) []
  | reading (seen : Bytes) : Waiting k (.read (AsyncFrameReader.holding seen) k) seen

/-- A task that has sent its message is waiting for the answer. -/
theorem Sending.waiting {k : K} {task : Task K R} (h : Sending (.readFrame k) task []) :
    Waiting k task [] := by
  cases h with
  | writing _ hne => exact absurd rfl hne
  | flushing => exact .flushing
  | sent => exact .reading []

/-- A task that a poll with any answer of a faithful stream leaves as it is. -/
def Idle (resume : K → Bytes → Act (Task K R)) (incoming : Bytes) (task : Task K R) : Prop :=
  ∀ answer rest, Faithful incoming task answer rest →
    task.poll resume answer = ⟨[], [], task⟩ ∧ rest = incoming

/-- A task that reads from an empty stream is idle. -/
theorem idle_readFrame (resume : K → Bytes → Act (Task K R)) (k : K) :
    Idle resume [] (.readFrame k) := by
  intro answer rest h
  cases h with
  | readPending => exact ⟨rfl, rfl⟩
  | readByte _ _ byte rest hbytes => cases hbytes

theorem idle_done (resume : K → Bytes → Act (Task K R)) (incoming : Bytes) (value : R) :
    Idle resume incoming (.done value) := by
  intro answer rest h
  cases h

/-- A poll of the sender moves bytes of its message to the stream. -/
theorem Sending.poll {resume : K → Bytes → Act (Task K R)} {next task : Task K R}
    {left incoming rest : Bytes} {answer : Answer} (h : Sending next task left)
    (hidle : Idle resume incoming next) (hanswer : Faithful incoming task answer rest) :
    rest = incoming ∧ ∃ left', left = (task.poll resume answer).taken ++ left' ∧
      Sending next (task.poll resume answer).task left' := by
  cases h with
  | writing outbox hne =>
    cases hanswer with
    | writePending => exact ⟨rfl, left, rfl, .writing left hne⟩
    | wrote _ _ n hpos =>
      refine ⟨rfl, ?_⟩
      -- The stream takes the rest of the message, or a proper part of it.
      by_cases hall : left.length ≤ n
      · rw [Task.poll_write_all hne hall]
        exact ⟨[], (List.append_nil _).symm, .flushing⟩
      · rw [Task.poll_write_some hpos (not_le.mp hall)]
        refine ⟨_, (List.take_append_drop n left).symm, .writing _ ?_⟩
        intro hnil
        exact hall (List.drop_eq_nil_iff.mp hnil)
  | flushing =>
    cases hanswer with
    | flushPending => exact ⟨rfl, [], rfl, .flushing⟩
    | flushed => exact ⟨rfl, [], rfl, .sent⟩
  | sent =>
    obtain ⟨hpoll, hrest⟩ := hidle answer rest hanswer
    rw [hpoll]
    exact ⟨hrest, [], rfl, .sent⟩

/-- The message `wire` is on its way, and behind it, once it has been sent, the bytes
`extra`: what the receiver has seen, what is in the stream and what is left to send
are the frame of the message and those bytes. -/
def Passing (wire extra : Bytes) (next : Task K R) (k : K') (sender : Task K R)
    (receiver : Task K' R') (fifo : Bytes) : Prop :=
  ∃ left seen, Sending next sender left ∧ Waiting k receiver seen ∧
    seen ++ fifo ++ left = Hdlc.encode wire ++ extra ∧
    seen.length < (Hdlc.encode wire).length ∧ (left ≠ [] → extra = [])

/-- A message begins to pass when its sender starts to write it. -/
theorem passing_send {wire extra fifo : Bytes} {next sender : Task K R} {k : K'}
    {receiver : Task K' R'} (hsender : sender = .send wire next) (hreceiver : Waiting k receiver [])
    (hfifo : fifo = []) (hextra : extra = []) :
    Passing wire extra next k sender receiver fifo := by
  have hne : Hdlc.encode wire ≠ [] := by
    rw [Hdlc.encode_eq]
    exact List.cons_ne_nil _ _
  subst hsender hfifo hextra
  exact ⟨Hdlc.encode wire, [], .writing _ hne, hreceiver, (List.append_nil _).symm,
    List.length_pos_iff.mpr hne, fun _ => rfl⟩

/-- A sender that goes on by reading has not returned, and not failed. -/
theorem Sending.ne_done {k : K} {task : Task K R} {left : Bytes}
    (h : Sending (.readFrame k) task left) (value : R) : task ≠ .done value := by
  cases h with
  | writing | flushing | sent => exact nofun

theorem Sending.ne_failed {next task : Task K R} {left : Bytes} (h : Sending next task left)
    (hnext : ∀ e, next ≠ .failed e) (e : Failure) : task ≠ .failed e := by
  cases h with
  | writing | flushing => exact nofun
  | sent => exact hnext e

/-- Nor has one that waits for a frame. -/
theorem Waiting.ne_done {k : K} {task : Task K R} {seen : Bytes} (h : Waiting k task seen)
    (value : R) : task ≠ .done value := by
  cases h with
  | flushing | reading => exact nofun

theorem Waiting.ne_failed {k : K} {task : Task K R} {seen : Bytes} (h : Waiting k task seen)
    (e : Failure) : task ≠ .failed e := by
  cases h with
  | flushing | reading => exact nofun

section Polls

variable {wire extra fifo back rest : Bytes} {next sender : Task K R} {k : K'}
  {receiver : Task K' R'} {answer : Answer}

theorem Passing.sender_poll {resume : K → Bytes → Act (Task K R)}
    (h : Passing wire extra next k sender receiver fifo) (hidle : Idle resume back next)
    (hanswer : Faithful back sender answer rest) :
    rest = back ∧ Passing wire extra next k (sender.poll resume answer).task receiver
      (fifo ++ (sender.poll resume answer).taken) := by
  obtain ⟨left, seen, hsending, hwaiting, hbytes, hseen, hextra⟩ := h
  obtain ⟨hrest, left', rfl, hsending'⟩ := hsending.poll hidle hanswer
  refine ⟨hrest, left', seen, hsending', hwaiting, ?_, hseen, ?_⟩
  · rw [← hbytes]
    simp only [List.append_assoc]
  · intro hne
    apply hextra
    intro hnil
    exact hne (List.append_eq_nil_iff.mp hnil).2

/-- A poll of the receiver reads on, or it reads the last byte of the frame: then the
message has been sent, and what is left in the stream is what came behind it. -/
theorem Passing.receiver_poll (resume : K' → Bytes → Act (Task K' R'))
    (h : Passing wire extra next k sender receiver fifo)
    (hsize : (Hdlc.encode wire).length ≤ Hdlc.maxFrameSize)
    (hanswer : Faithful fifo receiver answer rest) :
    (receiver.poll resume answer).taken = [] ∧
      (Passing wire extra next k sender (receiver.poll resume answer).task rest ∨
        (receiver.poll resume answer).task =
            (Task.ofAct (resume k (Hdlc.encode wire))).task ∧
          Sending next sender [] ∧ rest = extra) := by
  obtain ⟨left, seen, hsending, hwaiting, hbytes, hseen, hextra⟩ := h
  cases hwaiting with
  | flushing =>
    cases hanswer with
    | flushPending => exact ⟨rfl, .inl ⟨left, [], hsending, .flushing, hbytes, hseen, hextra⟩⟩
    | flushed => exact ⟨rfl, .inl ⟨left, [], hsending, .reading [], hbytes, hseen, hextra⟩⟩
  | reading seen =>
    cases hanswer with
    | readPending => exact ⟨rfl, .inl ⟨left, seen, hsending, .reading seen, hbytes, hseen, hextra⟩⟩
    | readByte _ _ byte _ hfifo =>
      subst hfifo
      have hsplit : seen ++ byte :: (rest ++ left) = Hdlc.encode wire ++ extra := by
        rw [← hbytes, List.append_assoc, List.cons_append]
      -- The byte is one of the frame's, for not all of the frame has been seen.
      rcases List.append_eq_append_iff.mp hsplit with ⟨later, hframe, hlater⟩ | ⟨later, hpast, -⟩
      · cases later with
        | nil =>
          rw [hframe, List.append_nil] at hseen
          exact absurd hseen (Nat.lt_irrefl _)
        | cons first later =>
          obtain ⟨rfl, hrest⟩ := List.cons.inj (hlater.trans (List.cons_append ..))
          by_cases hlast : later = []
          · subst hlast
            rw [Task.poll_last hsize hframe.symm]
            have hnil : left = [] := by
              by_contra hne
              rw [hextra hne, List.nil_append, List.append_eq_nil_iff] at hrest
              exact hne hrest.2
            subst hnil
            rw [List.append_nil, List.nil_append] at hrest
            exact ⟨rfl, .inr ⟨rfl, hsending, hrest⟩⟩
          · rw [Task.poll_within hsize hframe.symm hlast]
            refine ⟨rfl, .inl ⟨left, seen ++ [byte], hsending, .reading _, ?_, ?_, hextra⟩⟩
            · rw [← hsplit]
              simp only [List.append_assoc, List.cons_append, List.nil_append]
            · have hlen := congrArg List.length hframe
              have hpos := List.length_pos_iff.mpr hlast
              simp only [List.length_append, List.length_cons, List.length_nil] at hlen ⊢
              omega
      · rw [hpast, List.length_append] at hseen
        omega

/-- Behind a message that has been sent, more may be written. -/
theorem Passing.extend {value : R} (h : Passing wire extra (.done value) k sender receiver fifo)
    {value' : R} (hsender : sender = .done value') (more : Bytes) :
    Passing wire (extra ++ more) (.done value) k sender receiver (fifo ++ more) := by
  obtain ⟨left, seen, hsending, hwaiting, hbytes, hseen, -⟩ := h
  subst hsender
  cases hsending with
  | sent =>
    refine ⟨[], seen, .sent, hwaiting, ?_, hseen, fun hne => absurd rfl hne⟩
    rw [List.append_nil] at hbytes ⊢
    rw [← List.append_assoc, hbytes, List.append_assoc]

end Polls

/-! ## Every message arrives -/

/-- A sender, a receiver, and the bytes between them. -/
structure Lane (K R K' R' : Type) where
  sender : Task K R
  receiver : Task K' R'
  fifo : Bytes

/-- The polls that bring a message on: the stream takes all that the sender writes,
flushes at once, and gives the receiver the next byte. -/
inductive Lane.Step (resume : K' → Bytes → Act (Task K' R')) :
    Lane K R K' R' → Lane K R K' R' → Prop
  | write (outbox : Bytes) (next : Task K R) (receiver : Task K' R') (fifo : Bytes)
      (hne : outbox ≠ []) :
      Step resume ⟨.write outbox next, receiver, fifo⟩ ⟨next, receiver, fifo ++ outbox⟩
  | flushSender (next : Task K R) (receiver : Task K' R') (fifo : Bytes) :
      Step resume ⟨.flush next, receiver, fifo⟩ ⟨next, receiver, fifo⟩
  | flushReceiver (sender : Task K R) (next : Task K' R') (fifo : Bytes) :
      Step resume ⟨sender, .flush next, fifo⟩ ⟨sender, next, fifo⟩
  | read (sender : Task K R) (reader : AsyncFrameReader) (k : K') (byte : UInt8) (rest : Bytes) :
      Step resume ⟨sender, .read reader k, byte :: rest⟩
        ⟨sender, ((Task.read reader k).poll resume (.read (.byte byte))).task, rest⟩

/-- Each of these polls is one that a faithful stream allows, of the sender or of the
receiver. -/
theorem Lane.Step.faithful {resume : K' → Bytes → Act (Task K' R')}
    {lane lane' : Lane K R K' R'} (h : Lane.Step resume lane lane')
    (resumeSender : K → Bytes → Act (Task K R)) (back : Bytes) :
    (∃ answer, Faithful back lane.sender answer back ∧
      lane' = ⟨(lane.sender.poll resumeSender answer).task, lane.receiver,
        lane.fifo ++ (lane.sender.poll resumeSender answer).taken⟩) ∨
    ∃ answer rest, Faithful lane.fifo lane.receiver answer rest ∧
      (lane.receiver.poll resume answer).taken = [] ∧
      lane' = ⟨lane.sender, (lane.receiver.poll resume answer).task, rest⟩ := by
  -- A write or a flush of the sender moves its message; a flush of the receiver is what it had
  -- still to do after its own last message.
  cases h with
  | write outbox next receiver fifo hne =>
    refine .inl ⟨_, .wrote outbox next outbox.length (List.length_pos_iff.mpr hne), ?_⟩
    rw [Task.poll_write_all hne le_rfl]
  | flushSender next receiver fifo =>
    refine .inl ⟨_, .flushed next, ?_⟩
    exact congrArg (Lane.mk next receiver) (List.append_nil fifo).symm
  | flushReceiver sender next fifo => exact .inr ⟨_, fifo, .flushed next, rfl, rfl⟩
  | read sender reader k byte rest =>
    exact .inr ⟨_, rest, .readByte reader k byte rest rfl, Task.poll_read_taken .., rfl⟩

section Arrives

variable {resume : K' → Bytes → Act (Task K' R')} {wire extra fifo : Bytes}
  {next sender : Task K R} {k : K'} {receiver : Task K' R'}

/-- What is left of a message gets into the stream. -/
theorem Sending.writes {left : Bytes} (h : Sending next sender left)
    (resume : K' → Bytes → Act (Task K' R')) (receiver : Task K' R') (fifo : Bytes) :
    Relation.ReflTransGen (Lane.Step resume) ⟨sender, receiver, fifo⟩
      ⟨next, receiver, fifo ++ left⟩ := by
  cases h with
  | writing _ hne =>
    exact .head (.write left _ receiver fifo hne) (.single (.flushSender next receiver _))
  | flushing =>
    rw [List.append_nil]
    exact .single (.flushSender next receiver fifo)
  | sent =>
    rw [List.append_nil]

/-- A receiver reads the rest of a frame. -/
theorem reads_rest {seen later : Bytes} (hsize : (Hdlc.encode wire).length ≤ Hdlc.maxFrameSize)
    (hsplit : seen ++ later = Hdlc.encode wire) (hlater : later ≠ []) :
    Relation.ReflTransGen (Lane.Step resume)
      ⟨sender, .read (AsyncFrameReader.holding seen) k, later ++ extra⟩
      ⟨sender, (Task.ofAct (resume k (Hdlc.encode wire))).task, extra⟩ := by
  induction later generalizing seen with
  | nil => exact absurd rfl hlater
  | cons byte later ih =>
    refine .head (.read sender _ k byte (later ++ extra)) ?_
    by_cases hlast : later = []
    · subst hlast
      rw [Task.poll_last hsize hsplit]
      exact .refl
    · rw [Task.poll_within hsize hsplit hlast]
      exact ih (by rw [List.append_assoc, List.singleton_append, hsplit]) hlast

/-- A message on its way arrives. -/
theorem Passing.arrives (resume : K' → Bytes → Act (Task K' R'))
    (h : Passing wire extra next k sender receiver fifo)
    (hsize : (Hdlc.encode wire).length ≤ Hdlc.maxFrameSize) :
    Relation.ReflTransGen (Lane.Step resume) ⟨sender, receiver, fifo⟩
      ⟨next, (Task.ofAct (resume k (Hdlc.encode wire))).task, extra⟩ := by
  obtain ⟨left, seen, hsending, hwaiting, hbytes, hseen, -⟩ := h
  -- The stream is cut where the frame ends: `later` completes it, and `extra` is behind it.
  obtain ⟨later, hframe, hrest⟩ : ∃ later, seen ++ later = Hdlc.encode wire ∧
      fifo ++ left = later ++ extra := by
    rw [List.append_assoc] at hbytes
    rcases List.append_eq_append_iff.mp hbytes with ⟨later, hframe, hrest⟩ | ⟨later, hpast, -⟩
    · exact ⟨later, hframe.symm, hrest⟩
    · rw [hpast, List.length_append] at hseen
      omega
  have hlater : later ≠ [] := by
    rintro rfl
    rw [← hframe, List.append_nil] at hseen
    exact absurd hseen (Nat.lt_irrefl _)
  apply (hsending.writes resume receiver fifo).trans
  rw [hrest]
  cases hwaiting with
  | flushing => exact .head (.flushReceiver next _ _) (reads_rest hsize hframe hlater)
  | reading => exact reads_rest hsize hframe hlater

end Arrives

end Axsh

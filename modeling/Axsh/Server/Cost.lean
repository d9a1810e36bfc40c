/-
# What a peer can make a server do

A peer that a server has not admitted pays for what the server does. Each message that a
session has received was in a frame of its own, four bytes longer, so the requests that it
has answered are paid for with bytes (`Session.Paid`). It makes its one signature with the
connection key only for a client hello that it admits.
-/

import Axsh.Handshake.Footprint

set_option autoImplicit false

namespace Axsh

open Hdlc (AsyncFrameReader ReadResult)

/-! ## What is read -/

/-- The bytes that an answer of the stream brings. -/
def Answer.bytes : Answer → ℕ
  | .read (.byte _) => 1
  | _ => 0

/-- The bytes that a session has read in some polls. -/
def bytesRead (polls : List (Moment × Answer)) : ℕ := (polls.map fun poll => poll.2.bytes).sum

/-- The length of the frame that a message came in, at least. -/
def Event.price : Event → ℕ
  | .received wire => wire.length + 4
  | _ => 0

/-- The bytes that the messages of a trace came in, at least. -/
def priceOf (trace : List Event) : ℕ := (trace.map Event.price).sum

@[simp] theorem priceOf_append (first second : List Event) :
    priceOf (first ++ second) = priceOf first + priceOf second := by
  rw [priceOf, List.map_append, List.sum_append, ← priceOf, ← priceOf]

/-- Whether an event is a signature. -/
def Event.isSigned : Event → Bool
  | .signed _ => true
  | _ => false

namespace Hdlc.AsyncFrameReader

/-- A round of the reader keeps at most one byte more, or returns a frame with it. -/
theorem readOne_length (reader : AsyncFrameReader) (answer : ReadResult) :
    (reader.readOne answer).1.frame.length ≤ reader.frame.length + (Answer.read answer).bytes ∧
    ∀ frame, (reader.readOne answer).2 = some (.ready (.ok (some frame))) →
      frame.length ≤ reader.frame.length + (Answer.read answer).bytes := by
  cases answer with
  | pending => simp [readOne]
  | error kind message => simp [readOne]
  | eof => cases hin : reader.inFrame <;> simp [readOne, hin, Answer.bytes]
  | byte byte =>
    cases hin : reader.inFrame with
    | true =>
      by_cases hfull : maxFrameSize ≤ reader.frame.length
      · have hpush : pushFrameByte reader.frame byte = .error frameTooLarge := if_pos hfull
        simp [readOne, hin, hpush]
      · have hpush : pushFrameByte reader.frame byte = .ok (reader.frame ++ [byte]) := if_neg hfull
        simp only [readOne, hin, if_true, hpush]
        split_ifs
        · refine ⟨Nat.zero_le _, ?_⟩
          rintro frame ⟨⟩
          exact List.length_append.le
        · refine ⟨List.length_append.le, ?_⟩
          rintro frame ⟨⟩
    | false =>
      simp only [readOne, hin, Bool.false_eq_true, if_false]
      split_ifs
      · refine ⟨Nat.le_add_left 1 _, ?_⟩
        rintro frame ⟨⟩
      · refine ⟨Nat.le_add_right _ _, ?_⟩
        rintro frame ⟨⟩

end Hdlc.AsyncFrameReader

namespace Task

variable {K R : Type}

/-- The bytes of a frame that is not complete. -/
def unparsed : Task K R → ℕ
  | .read reader _ => reader.frame.length
  | .write _ next | .flush next => next.unparsed
  | .done _ | .failed _ => 0

/-- A computation that goes on with a frame: its messages came in the frame, and it holds no
part of another one. -/
structure Spends (act : Act (Task K R)) (frame : Bytes) : Prop where
  price : priceOf act.events ≤ frame.length
  unparsed : (ofAct act).task.unparsed = 0

/-- A poll holds, and has made messages of, no more than it held and has read. -/
theorem poll_price {resume : K → Bytes → Act (Task K R)}
    (hresume : ∀ k frame, Spends (resume k frame) frame) (task : Task K R) (answer : Answer) :
    priceOf (task.poll resume answer).events + (task.poll resume answer).task.unparsed ≤
      task.unparsed + answer.bytes := by
  unfold Task.poll
  split
  · rename_i reader k answer
    obtain ⟨hkeeps, hframe⟩ := reader.readOne_length answer
    split
    · rename_i hone
      rw [hone] at hkeeps
      exact (Nat.zero_add _).le.trans hkeeps
    · rename_i hone
      rw [hone] at hkeeps
      exact (Nat.zero_add _).le.trans hkeeps
    · rename_i result hone
      split
      · exact Nat.zero_le _
      · rename_i frame hresult
        -- The frame that is gone on with is the one that the reader returned.
        have hreturned : result = .ok (some frame) := by
          match result, hresult with
          | .ok (some _), hresult => rw [Except.ok.inj hresult]
          | .ok none, hresult => cases hresult
          | .error _, hresult => cases hresult
        obtain ⟨hprice, hunparsed⟩ := hresume k frame
        change priceOf (resume k frame).events + (ofAct (resume k frame)).task.unparsed ≤ _
        rw [hunparsed]
        exact hprice.trans (hframe frame (by rw [hone, hreturned]))
  · split
    · exact (Nat.zero_add _).le.trans (Nat.le_add_right _ _)
    · exact Nat.zero_le _
    · split_ifs
      · exact Nat.zero_le _
      · exact (Nat.zero_add _).le.trans (Nat.le_add_right _ _)
      · exact (Nat.zero_add _).le.trans (Nat.le_add_right _ _)
  · split
    · exact (Nat.zero_add _).le.trans (Nat.le_add_right _ _)
    · exact Nat.zero_le _
    · exact (Nat.zero_add _).le.trans (Nat.le_add_right _ _)
  · exact (Nat.zero_add _).le.trans (Nat.le_add_right _ _)

end Task

/-- A session has read what its messages and the bytes it still holds came in. -/
theorem Session.paid_afterPolls {K R : Type} {resume : Moment → K → Bytes → Act (Task K R)}
    (hresume : ∀ moment k frame, Task.Spends (resume moment k frame) frame) (s : Session K R)
    (polls : List (Moment × Answer)) :
    priceOf (s.afterPolls resume polls).trace + (s.afterPolls resume polls).task.unparsed ≤
      priceOf s.trace + s.task.unparsed + bytesRead polls := by
  induction polls generalizing s with
  | nil => exact Nat.le_add_right _ _
  | cons poll polls ih =>
    have hpoll := Task.poll_price (hresume poll.1) s.task poll.2
    have hrest := ih (s.after (resume poll.1) poll.2)
    have htrace : priceOf (s.after (resume poll.1) poll.2).trace = priceOf s.trace +
        priceOf (s.task.poll (resume poll.1) poll.2).events := priceOf_append _ _
    have hread : bytesRead (poll :: polls) = poll.2.bytes + bytesRead polls := rfl
    change priceOf ((s.after (resume poll.1) poll.2).afterPolls resume polls).trace +
      ((s.after (resume poll.1) poll.2).afterPolls resume polls).task.unparsed ≤ _
    have htask : (s.after (resume poll.1) poll.2).task =
      (s.task.poll (resume poll.1) poll.2).task := rfl
    rw [htrace, htask] at hrest
    omega

/-! ## The server -/

namespace ServerConfig

variable {C : Crypto} (cfg : ServerConfig C)

theorem queues_of_refuses {act : Act (ServerTask C)} (h : act.Refuses) : act.Queues := by
  rcases h with ⟨⟨e, hresult⟩, hevents⟩ | ⟨wire, ⟨e, hresult⟩, hevents⟩
  all_goals
    unfold Act.Queues
    rw [hresult, hevents]
    rfl

/-- A server sends the messages that its trace says it writes. -/
theorem start_queues : cfg.start.Queues := by
  rcases cfg.start_eq with ⟨⟨e, hresult⟩, hevents⟩ | ⟨packetSign, unique, -, -, hrun⟩
  · unfold Act.Queues
    rw [hresult, hevents]
    rfl
  · rw [hrun]
    rfl

theorem resume_queues (moment : Moment) (pending : ServerPending C) (frame : Bytes) :
    (cfg.resume moment pending frame).Queues := by
  rcases cfg.resume_eq moment pending frame with
    hrefuses | hdecode | ⟨hello, publicKey, signature, hdecode, hadmits⟩
  · exact queues_of_refuses hrefuses
  · rw [resume_of_request hdecode]
    rfl
  · rw [resume_of_admits hdecode hadmits]
    rfl

/-- The message that a round of the loop receives is the one in its frame. -/
theorem resume_received (moment : Moment) (pending : ServerPending C) (frame : Bytes) :
    (cfg.resume moment pending frame).events = [] ∨
    ∃ wire rest, Hdlc.decode frame = .ok wire ∧
      (cfg.resume moment pending frame).events = .received wire :: rest := by
  match hdecode : Hdlc.decode frame with
  | .error e =>
    left
    rw [resume, hdecode]
    rfl
  | .ok wire =>
    right
    rw [resume, hdecode, Act.call_ok_bind]
    exact ⟨wire, _, rfl, rfl⟩

theorem resume_spends (moment : Moment) (pending : ServerPending C) (frame : Bytes) :
    Task.Spends (cfg.resume moment pending frame) frame := by
  rcases cfg.resume_eq moment pending frame with
    hrefuses | hdecode | ⟨hello, publicKey, signature, hdecode, hadmits⟩
  · have hunparsed : (Task.ofAct (cfg.resume moment pending frame)).task.unparsed = 0 := by
      rcases hrefuses with ⟨⟨e, hresult⟩, -⟩ | ⟨_, ⟨e, hresult⟩, -⟩
      all_goals
        rw [Task.ofAct, hresult]
        rfl
    refine ⟨?_, hunparsed⟩
    rcases cfg.resume_received moment pending frame with hnil | ⟨wire, rest, hdecode, hevents⟩
    · rw [hnil]
      exact Nat.zero_le _
    · rcases hrefuses with ⟨-, hnil⟩ | ⟨wire', -, hone⟩
      · cases hevents.symm.trans hnil
      · obtain ⟨-, rfl⟩ := List.cons.inj (hevents.symm.trans hone)
        rw [hevents]
        exact (length_of_decode hdecode).1
  · rw [resume_of_request hdecode]
    exact ⟨(length_of_decode hdecode).1, rfl⟩
  · rw [resume_of_admits hdecode hadmits]
    exact ⟨(length_of_decode hdecode).1, rfl⟩

variable {cfg}

theorem follows_afterPolls {verdicts : Verifier → Prop} (polls : List (Moment × Answer))
    (hV : ∀ poll ∈ polls, verdicts poll.1.V) {s : ServerSession C}
    (h : cfg.Follows verdicts s.task s.trace) :
    cfg.Follows verdicts (s.afterPolls cfg.resume polls).task
      (s.afterPolls cfg.resume polls).trace := by
  induction polls generalizing s with
  | nil => exact h
  | cons poll polls ih =>
    exact ih (fun other hmem => hV other (List.mem_cons_of_mem _ hmem))
      (s := s.after (cfg.resume poll.1) poll.2)
      (h.poll poll.1 (hV poll List.mem_cons_self) poll.2)

/-- What a server writes before it admits a client: its hello, and its key for each request. -/
theorem length_framesOf_loop (hello : ServerHello) (n : ℕ) :
    (framesOf (cfg.loopEvents hello n)).length ≤ 162 + n * 2742 := by
  induction n with
  | zero =>
    have hframes : framesOf (cfg.loopEvents hello 0) = Hdlc.encode (helloWire hello) :=
      List.append_nil _
    have hle := Hdlc.length_encode_le (helloWire hello)
    have hlen : (helloWire hello).length = 78 := by simp [helloWire]
    rw [hframes]
    omega
  | succ n ih =>
    have hframes : framesOf [.received [packetTypeRequestServerPubkey],
        .wrote (packetTypeServerPubkey :: cfg.connSign.publicKeyBytes)] =
          Hdlc.encode (packetTypeServerPubkey :: cfg.connSign.publicKeyBytes) := List.append_nil _
    have hle := Hdlc.length_encode_le (packetTypeServerPubkey :: cfg.connSign.publicKeyBytes)
    rw [List.length_cons, length_publicKeyBytes] at hle
    rw [loopEvents_succ, framesOf_append, hframes, List.length_append]
    omega

/-- What the requests that a server has answered came in, at least. -/
theorem priceOf_loop (hello : ServerHello) (n : ℕ) : priceOf (cfg.loopEvents hello n) = 5 * n := by
  induction n with
  | zero => rfl
  | succ n ih =>
    rw [loopEvents_succ, priceOf_append, ih]
    rfl

theorem countP_isSigned_loop (hello : ServerHello) (n : ℕ) :
    (cfg.loopEvents hello n).countP Event.isSigned = 0 := by
  induction n with
  | zero => rfl
  | succ n ih =>
    rw [loopEvents_succ, List.countP_append, ih]
    rfl

/-- A script has one signature, behind the admission of a client hello, or none. -/
theorem Script.countP_isSigned {verdicts : Verifier → Prop} {trace : List Event}
    (h : cfg.Script verdicts trace) : trace.countP Event.isSigned ≤ 1 := by
  cases h with
  | nil => exact Nat.zero_le _
  | looping => exact (countP_isSigned_loop _ _).le.trans (Nat.zero_le _)
  | refused =>
    rw [List.countP_append, countP_isSigned_loop]
    exact Nat.zero_le _
  | accepted =>
    rw [List.countP_append, countP_isSigned_loop]
    exact le_rfl

theorem signed_mem_accept {hello : ServerHello} {n : ℕ} {pending : ServerPending C} {wire : Bytes} :
    .signed (pending.serverHelloWire ++ wire) ∈
      cfg.loopEvents hello n ++ cfg.acceptEvents pending wire :=
  List.mem_append_right _ (List.mem_cons_of_mem _ List.mem_cons_self)

/-- What a script without a signature writes, and what it has cost the peer. -/
theorem Script.cost {verdicts : Verifier → Prop} {trace : List Event}
    (h : cfg.Script verdicts trace) (hsigned : ∀ message, .signed message ∉ trace) :
    ∃ n, 5 * n ≤ priceOf trace ∧ (framesOf trace).length ≤ 162 + n * 2742 := by
  cases h with
  | nil => exact ⟨0, le_rfl, Nat.zero_le _⟩
  | looping hstarted n => exact ⟨n, (priceOf_loop _ n).ge, length_framesOf_loop _ n⟩
  | refused hstarted n wire =>
    have hframes : framesOf [.received wire] = [] := rfl
    refine ⟨n, ?_, ?_⟩
    · rw [priceOf_append, priceOf_loop]
      exact Nat.le_add_right _ _
    · rw [framesOf_append, hframes, List.append_nil]
      exact length_framesOf_loop _ n
  | accepted haccepted n => exact absurd signed_mem_accept (hsigned _)

variable (cfg)

/-- Whatever its peer sends, a server that has not admitted a client hello has sent its own hello
and, for every five bytes that it read, its public key once at most; it has signed nothing with
its connection key, and returned no stream. It signs once in all, and only for a hello whose key
is authorized and whose signature that key has made. -/
theorem unadmitted_cost (polls : List (Moment × Answer)) :
    let s := cfg.session.afterPolls cfg.resume polls
    ((∀ message, .signed message ∉ s.trace) →
      (∃ n, 5 * n ≤ bytesRead polls ∧ s.sent.length ≤ 162 + n * 2742) ∧
        ∀ stream, s.task ≠ .done stream) ∧
    s.trace.countP Event.isSigned ≤ 1 ∧
    ∀ message, .signed message ∈ s.trace → ∃ packetSign unique hello publicKey signature,
      cfg.Accepted (fun V => ∃ poll ∈ polls, poll.1.V = V) packetSign unique hello publicKey
        signature := by
  intro s
  have hfollows : cfg.Follows (fun V => ∃ poll ∈ polls, poll.1.V = V) s.task s.trace :=
    follows_afterPolls polls (fun poll hmem => ⟨poll, hmem, rfl⟩) cfg.start_follows
  have hbalanced : s.Balanced := Session.afterPolls_rule Session.Balanced
    (fun s moment answer h => h.after (cfg.resume_queues moment) answer)
    (Session.balanced_begin cfg.start_queues) polls
  have hpaid := Session.paid_afterPolls cfg.resume_spends cfg.session polls
  refine ⟨fun hsigned => ⟨?_, fun stream hdone => ?_⟩, hfollows.script.countP_isSigned,
    fun message hmem => ?_⟩
  · obtain ⟨n, hprice, hframes⟩ := hfollows.script.cost hsigned
    have hstart : priceOf cfg.session.trace + cfg.session.task.unparsed = 0 := by
      rcases cfg.start_eq with ⟨⟨e, hresult⟩, hevents⟩ | ⟨packetSign, unique, -, -, hrun⟩
      · rw [session, Session.begin, Task.ofAct, hresult, hevents]
        rfl
      · rw [session, Session.begin, hrun]
        rfl
    refine ⟨n, ?_, hbalanced.sent.length_le.trans hframes⟩
    have hread : priceOf s.trace + s.task.unparsed ≤
      priceOf cfg.session.trace + cfg.session.task.unparsed + bytesRead polls := hpaid
    omega
  · rw [hdone] at hfollows
    obtain ⟨now, packetSign, unique, hello, publicKey, signature, n, -, -, htrace⟩ := hfollows
    exact hsigned _ (htrace ▸ signed_mem_accept)
  · obtain ⟨packetSign, unique, hello, publicKey, signature, n, haccepted, -⟩ :=
      hfollows.script.signed_of_mem hmem
    exact ⟨packetSign, unique, hello, publicKey, signature, haccepted⟩

end ServerConfig

end Axsh

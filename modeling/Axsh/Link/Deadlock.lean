/-
# Where a session hangs

Neither program reads while it writes. A session over a connection with room for some bytes goes
on, or waits for its user, in every state but one kind: the client is in the flush of a line and
the server in the flush of output, and the connection has no room for either (`Blocked`). No
step changes such a state, and there is one for every capacity from one short frame on.
-/

import Axsh.Link.Complete

set_option autoImplicit false

namespace Axsh

open PayloadStream
open Hdlc (ReadResult)

variable {C : Crypto}

section Flush

variable {self : PayloadStream C}

/-- A drain that hands over nothing leaves the stream as it is. -/
theorem drain_of_taken_nil {answers : List WriteResult} (hfaithful : Pipe.Faithful answers)
    (hunsent : self.unsent ≠ []) (htaken : (self.pollDrainWriteBuffer answers).taken = []) :
    (self.pollDrainWriteBuffer answers).stream = self ∧
      (self.pollDrainWriteBuffer answers).result = .pending := by
  have hmore : self.writeOffset < self.writeBuffer.length := by
    have hlength := List.length_pos_iff.mpr hunsent
    rw [unsent, List.length_drop] at hlength
    omega
  have hoffered : 0 < (self.writeBuffer.drop self.writeOffset).length := by
    rw [List.length_drop]
    omega
  cases answers with
  | nil => rw [pollDrainWriteBuffer, if_pos hmore]; exact ⟨rfl, rfl⟩
  | cons answer rest =>
    rcases hfaithful answer List.mem_cons_self with rfl | ⟨n, hn, rfl⟩
    · rw [pollDrainWriteBuffer, if_pos hmore]; exact ⟨rfl, rfl⟩
    · have hwritten : min n (self.writeBuffer.drop self.writeOffset).length ≠ 0 := by omega
      rw [pollDrainWriteBuffer, if_pos hmore] at htaken
      simp only [if_neg hwritten] at htaken
      -- It has handed over something.
      have hsome := (List.append_eq_nil_iff.mp htaken).1
      have hlength := congrArg List.length hsome
      rw [List.length_take, List.length_nil] at hlength
      omega

/-- Nor does a flush. -/
theorem flush_of_taken_nil {answers : List WriteResult} {poll : Poll (Res Unit)}
    (hfaithful : Pipe.Faithful answers) (hunsent : self.unsent ≠ [])
    (htaken : (self.send (.flush answers poll)).taken = []) :
    (self.send (.flush answers poll)).stream = self ∧
      (self.pollFlushPayload answers poll).result = .pending := by
  have hdrained : (self.pollDrainThen answers poll).taken =
      (self.pollDrainWriteBuffer answers).taken := by
    simp only [pollDrainThen]
    split <;> rfl
  obtain ⟨hstream, hresult⟩ := drain_of_taken_nil hfaithful hunsent (hdrained.symm.trans htaken)
  simp only [PayloadStream.send, pollFlushPayload, pollDrainThen, hresult]
  exact ⟨hstream, trivial⟩

theorem Endpoint.afterSend_of_taken_nil {e : Endpoint C} {answers : List WriteResult}
    {poll : Poll (Res Unit)} (hfaithful : Pipe.Faithful answers) (hunsent : e.stream.unsent ≠ [])
    (htaken : (e.stream.send (.flush answers poll)).taken = []) :
    e.afterSend (.flush answers poll) = e := by
  have hstream := (flush_of_taken_nil hfaithful hunsent htaken).1
  have hsigned : (e.stream.send (.flush answers poll)).signed = none := rfl
  have haccepted : (e.stream.send (.flush answers poll)).accepted = [] := rfl
  rw [afterSend, hstream, hsigned, haccepted, List.append_nil, Option.map_none, Option.toList_none,
    List.append_nil]

end Flush

namespace Link

/-- No step changes anything any more. -/
def Stuck (V : Verifier) (capacity : ℕ) (l : Link C) : Prop :=
  ∀ l', Step V capacity l l' → l' = l

/-- Both programs are in a flush, and there is no room for what they have to send. -/
structure Blocked (capacity : ℕ) (l : Link C) : Prop where
  loop : l.client.loop = .flush true false
  clientUnsent : l.client.endpoint.stream.unsent ≠ []
  toServer : capacity ≤ l.toServer.length
  serving : ∃ next, l.server.serving = .runCommandLine (.flush next)
  serverUnsent : l.server.endpoint.stream.unsent ≠ []
  toClient : capacity ≤ l.toClient.length

section Stuck

variable {V : Verifier} {capacity : ℕ} {l : Link C} {sent done : List Text}

theorem Takes.nil_of_full {fifo : Bytes} {stream : PayloadStream C} {call : SendCall}
    (h : Takes capacity fifo stream call) (hfull : capacity ≤ fifo.length) :
    (stream.send call).taken = [] := by
  have hroom := h.room
  rw [List.length_append] at hroom
  exact List.length_eq_zero_iff.mp (by omega)

/-- Neither flush hands anything over. -/
theorem Blocked.stuck (h : l.Blocked capacity) : l.Stuck V capacity := by
  intro l' hstep
  obtain ⟨next, hserving⟩ := h.serving
  cases hstep with
  | stdinLine line hloop | stdinEnd hloop | clientRead stdinOpen hloop | clientWrite buf hloop
    | clientShutdown exit hloop => exact absurd (hloop.symm.trans h.loop) (by simp)
  | clientFlush stdinOpen exit hloop answers poll htakes =>
    have htaken := htakes.nil_of_full h.toServer
    have hfaithful : Pipe.Faithful answers := htakes.answers.1
    have hresult := (flush_of_taken_nil hfaithful h.clientUnsent htaken).2
    rw [clientSend, Endpoint.afterSend_of_taken_nil hfaithful h.clientUnsent htaken, htaken,
      List.append_nil, hresult, MainLoop.afterFlush, ← hloop]
  | serverRead hserving' | serverWrite buf next' hserving' =>
    exact absurd (hserving'.symm.trans hserving) (by simp)
  | serverFlush next' hserving' answers poll htakes =>
    have htaken := htakes.nil_of_full h.toClient
    have hfaithful : Pipe.Faithful answers := htakes.answers.1
    have hresult := (flush_of_taken_nil hfaithful h.serverUnsent htaken).2
    rw [serverSend, Endpoint.afterSend_of_taken_nil hfaithful h.serverUnsent htaken, htaken,
      List.append_nil, hresult, CommandLine.afterFlush, ← hserving']
  | serverLocal server hlocal hstep hran =>
    exact absurd (by rw [ServerProgram.Sending, hserving]; trivial) hlocal

/-- Two programs that have returned do nothing. -/
theorem stuck_of_returned (hloop : l.client.loop = .returned)
    (hserving : l.server.serving = .returned) : l.Stuck V capacity := by
  intro l' hstep
  cases hstep with
  | stdinLine line hloop' | stdinEnd hloop' | clientRead stdinOpen hloop' | clientWrite buf hloop'
    | clientShutdown exit hloop' | clientFlush stdinOpen exit hloop' =>
    exact absurd (hloop'.symm.trans hloop) (by simp)
  | serverRead hserving' | serverWrite buf next hserving' | serverFlush next hserving' =>
    exact absurd (hserving'.symm.trans hserving) (by simp)
  | serverLocal server hlocal hstep hran =>
    cases hstep with
    | read hserving' | scan hserving' | spawn hserving' | pipe stdoutOpen stderrOpen hserving'
      | wait hserving' | write buf next hserving' | flush next hserving' | done hserving'
      | failed e hserving' => exact absurd (hserving'.symm.trans hserving) (by simp)

/-! ## Every other state goes on -/

/-- What the connection takes is there behind the call. -/
theorem taken_eq_nil {fifo taken : Bytes} (h : fifo ++ taken = fifo) : taken = [] :=
  List.append_cancel_left (h.trans (List.append_nil _).symm)

theorem CommandLine.ne_flush (next : CommandLine) : next ≠ .flush next := by
  intro heq
  have hsize := congrArg sizeOf heq
  simp at hsize

/-- The handler does not wait for a line at the end of the stream. -/
theorem ServerProgram.read_serving_ne {s : ServerProgram C} {call : ReadCall}
    (hresult : (s.endpoint.stream.read call).result = .ready (.ok [])) :
    (s.read call).serving ≠ .nextLine := by
  simp only [ServerProgram.read, hresult, List.isEmpty_nil, if_true, ServerProgram.finish]
  split <;> simp

/-- A scan takes what is available, or starts a command, or ends the loop. -/
theorem ServerProgram.scan_cases {s : ServerProgram C} (hserving : s.serving = .nextLine)
    (havailable : s.reader.available ≠ []) :
    s.scan ≠ s ∧ s.scan.output = s.output ∧
      ∀ phase, s.scan.serving = .runCommandLine phase → phase = .spawn := by
  have hother (next : ServerProgram C) (hnext : next.serving ≠ .nextLine) : next ≠ s := by
    rintro rfl
    exact hnext hserving
  unfold ServerProgram.scan
  split_ifs
  · simp only [ServerProgram.finish]
    split
    · exact ⟨hother _ (by simp), rfl, by simp⟩
    · exact ⟨hother _ (by simp), rfl, by simp⟩
    · refine ⟨hother _ (by simp), rfl, fun phase hphase => ?_⟩
      exact (Serving.runCommandLine.inj hphase).symm
  · refine ⟨fun hsame => ?_, rfl, fun phase hphase => absurd (hserving.symm.trans hphase) (by simp)⟩
    exact havailable (congrArg (fun s => s.reader.available) hsame).symm

/-- A server that is stuck at the head of its loop has nothing to read, and its client has not
ended. -/
theorem Keeps.waits_of_stuck (hV : V.Correct C) (h : l.Keeps sent done)
    (hserving : l.server.serving = .nextLine) (hstuck : l.Stuck V capacity) :
    l.toServer = [] ∧ l.ended = false := by
  have havailable : l.server.reader.available = [] := by
    by_contra havailable
    obtain ⟨hne, houtput, hphase⟩ := ServerProgram.scan_cases hserving havailable
    have hwaits : ¬ l.server.Sending := by
      rw [ServerProgram.Sending, hserving]
      exact id
    have hran : l.server.scan.Ran := by
      refine ⟨fun e he => absurd (hphase _ he) (by simp), fun status hstatus => ?_⟩
      rw [houtput] at hstatus
      exact h.display status hstatus
    have hsame := hstuck _ (.serverLocal l.server.scan hwaits (.scan hserving havailable) hran)
    exact hne (congrArg Link.server hsame)
  -- A read of anything would change something.
  have hread {answers : List ReadResult} (hmeets : Meets l.toServer (l.ended = true) answers) :
      answers = [] := by
    let clock : ℕ → Instant := fun _ => l.server.endpoint.stream.peerPacketVerify.lastSuccess
    have hsame :=
      hstuck _ (.serverRead hserving havailable clock (noIdleGap_const _) answers hmeets)
    have hpipe : l.up.afterRead ⟨V, clock, 8192, answers⟩ = l.up := by
      have hup := congrArg Link.up hsame
      simp only [Link.serverRead, Link.up, ServerProgram.read_endpoint] at hup
      exact hup
    have hremaining : (8192 : ℕ) ≠ 0 := by omega
    have houtcome :=
      (h.up.afterRead hV h.unsent_of_ended (noIdleGap_const _) hremaining hmeets).2
    rcases houtcome.of_same hpipe with hnone | ⟨-, hresult⟩
    · exact hnone
    · have hnext := congrArg (fun l => l.server.serving) hsame
      exact absurd (hnext.trans hserving) (ServerProgram.read_serving_ne hresult)
  refine ⟨?_, Bool.eq_false_iff.mpr fun hend => ?_⟩
  · have hnone := hread (.bytes l.toServer.length)
    rwa [List.take_length, List.map_eq_nil_iff] at hnone
  · exact absurd (hread (.eof hend)) (List.append_ne_nil_of_right_ne_nil _ (List.cons_ne_nil _ _))

/-- A command that is stuck is in a flush, without room. -/
theorem Keeps.flush_of_stuck (h : l.Keeps sent done) {phase : CommandLine}
    (hserving : l.server.serving = .runCommandLine phase) (hroom : l.toClient.length ≤ capacity)
    (hstuck : l.Stuck V capacity) :
    (∃ next, phase = .flush next) ∧ l.server.endpoint.stream.unsent ≠ [] ∧
      capacity ≤ l.toClient.length := by
  have hclear := h.clear
  have hphase := h.serves.phase
  rw [hserving] at hclear hphase
  -- What the operating system may do leads elsewhere.
  have hlocal {server : ServerProgram C} (hwaits : ¬ l.server.Sending)
      (hstep : ServerProgram.Step Unread l.server server) (hran : server.Ran) :
      server.serving = .runCommandLine phase := by
    have hsame := hstuck _ (.serverLocal server hwaits hstep hran)
    exact (congrArg (fun l => l.server.serving) hsame).trans hserving
  cases phase with
  | spawn =>
    have hwaits : ¬ l.server.Sending := by rw [ServerProgram.Sending, hserving]; exact id
    cases hlocal hwaits (.spawn hserving (.ok ())) ⟨by rintro _ ⟨⟩, h.display⟩
  | select stdoutOpen stderrOpen =>
    have hwaits : ¬ l.server.Sending := by rw [ServerProgram.Sending, hserving]; exact id
    have hroom (data : Bytes) (hdata : (.ready (.ok []) : Poll (Res Bytes)) = .ready (.ok data)) :
        data.length ≤ 4096 := by
      obtain rfl := Except.ok.inj (Poll.ready.inj hdata)
      exact Nat.zero_le _
    -- Some pipe is open, and may end.
    cases stdoutOpen with
    | true =>
      have hnext := hlocal hwaits (.pipe _ _ hserving .stdout rfl (.ready (.ok [])) hroom)
        ⟨by cases stderrOpen <;> rintro _ ⟨⟩, h.display⟩
      cases stderrOpen <;> cases hnext
    | false =>
      cases stderrOpen with
      | true =>
        cases hlocal hwaits (.pipe _ _ hserving .stderr rfl (.ready (.ok [])) hroom)
          ⟨by rintro _ ⟨⟩, h.display⟩
      | false => cases hclear.2
  | wait =>
    have hwaits : ¬ l.server.Sending := by rw [ServerProgram.Sending, hserving]; exact id
    refine absurd (hlocal hwaits (.wait hserving (.ready (.ok ⟨some 0, []⟩)))
      ⟨by rintro _ ⟨⟩, ?_⟩) (by rintro ⟨⟩)
    rintro status ⟨⟩
    exact Nat.zero_le _
  | writeAll buf next =>
    have hbuf := hphase.1.mem_due.1
    have hresult := Shell.pollWritePayload_of_unsent hclear.1 hbuf
    have htakes : Takes capacity l.toClient l.server.endpoint.stream (.write buf []) :=
      Takes.write h.down.senderBounded hclear.1 hbuf hroom
    have hsame := congrArg (fun l => l.server.serving)
      (hstuck _ (.serverWrite buf next hserving [] htakes))
    have hafter : CommandLine.afterWrite buf next (.ready (.ok buf.length)) = next := by
      simp [CommandLine.afterWrite, hbuf]
    simp only [ServerProgram.write, hresult, hafter, hserving] at hsame
    obtain ⟨-, -, hpaired, -⟩ := hphase
    cases next with
    | flush next => cases hsame
    | spawn | select | wait | writeAll | returned => exact hpaired.elim
  | flush next =>
    have hstep := Step.serverFlush (V := V) next hserving _ _
      (Takes.flushInto l.server.endpoint.stream hroom)
    have hsame := hstuck _ hstep
    obtain ⟨htaken, -, hall⟩ := flush_flushInto l.server.endpoint.stream
      (capacity - l.toClient.length)
    have hunsent : l.server.endpoint.stream.unsent ≠ [] := by
      intro hunsent
      have hserved := congrArg (fun l => l.server.serving) hsame
      simp only [hall (by rw [hunsent]; exact Nat.zero_le _), CommandLine.afterFlush, hserving]
        at hserved
      exact CommandLine.ne_flush next (Serving.runCommandLine.inj hserved)
    have hnone := taken_eq_nil (congrArg Link.toClient hsame)
    rw [htaken] at hnone
    have hfull := (List.take_eq_nil_iff.mp hnone).resolve_right hunsent
    exact ⟨⟨next, rfl⟩, hunsent, by omega⟩
  | returned result =>
    have hwaits : ¬ l.server.Sending := by rw [ServerProgram.Sending, hserving]; exact id
    cases result with
    | error e => exact hclear.elim
    | ok u => cases hlocal hwaits (.done hserving) ⟨by simp, by rintro _ ⟨⟩⟩

/-- A client that is stuck has returned, or has nothing to read and no more lines to send, or is in
the flush of a line, without room. -/
theorem Keeps.client_of_stuck (hV : V.Correct C) (h : l.Keeps sent done)
    (hroom : l.toServer.length ≤ capacity) (hstuck : l.Stuck V capacity) :
    l.client.loop = .returned ∨
      (l.client.loop = .select false ∧ l.toClient = [] ∧ l.server.serving ≠ .returned) ∨
      (l.client.loop = .flush true false ∧ l.client.endpoint.stream.unsent ≠ [] ∧
        capacity ≤ l.toServer.length) := by
  have hsettled := h.settled
  obtain ⟨rest, -, howes⟩ := h.typed.owes
  cases hloop : l.client.loop with
  | returned => exact .inl rfl
  | select stdinOpen =>
    cases stdinOpen with
    | true =>
      -- The user may end the input.
      have hsame := congrArg (fun l => l.client.loop) (hstuck _ (.stdinEnd hloop))
      cases hsame.trans hloop
    | false =>
      refine .inr (.inl ⟨rfl, ?_⟩)
      have hread {answers : List ReadResult}
          (hmeets : Meets l.toClient (l.server.serving = .returned) answers) : answers = [] := by
        let clock : ℕ → Instant := fun _ => l.client.endpoint.stream.peerPacketVerify.lastSuccess
        have hsame := hstuck _ (.clientRead false hloop clock (noIdleGap_const _) answers hmeets)
        have hpipe : l.down.afterRead ⟨V, clock, 1024, answers⟩ = l.down := congrArg Link.down hsame
        have hremaining : (1024 : ℕ) ≠ 0 := by omega
        have houtcome :=
          (h.down.afterRead hV h.unsent_of_returned (noIdleGap_const _) hremaining hmeets).2
        rcases houtcome.of_same hpipe with hnone | ⟨-, hresult⟩
        · exact hnone
        · have hresult : (l.client.endpoint.stream.read ⟨V, clock, 1024, answers⟩).result =
              .ready (.ok []) := hresult
          have hnext := congrArg (fun l => l.client.loop) hsame
          simp only [hresult, hloop] at hnext
          cases hnext
      refine ⟨?_, fun hreturned => ?_⟩
      · have hnone := hread (.bytes l.toClient.length)
        rwa [List.take_length, List.map_eq_nil_iff] at hnone
      · exact absurd (hread (.eof hreturned))
          (List.append_ne_nil_of_right_ne_nil _ (List.cons_ne_nil _ _))
  | writeAll buf =>
    rw [hloop] at hsettled howes
    obtain ⟨line, -, rfl, -⟩ := howes
    have hne : lineBytes line ≠ [] := by simp [lineBytes]
    have hresult := Shell.pollWritePayload_of_unsent hsettled.1 hne
    have htakes : Takes capacity l.toServer l.client.endpoint.stream (.write (lineBytes line) []) :=
      Takes.write h.up.senderBounded hsettled.1 hne hroom
    have hsame := congrArg (fun l => l.client.loop) (hstuck _ (.clientWrite _ hloop [] htakes))
    have hafter : MainLoop.afterWrite (lineBytes line) (.ready (.ok (lineBytes line).length)) =
        .flush true false := by
      simp [MainLoop.afterWrite, hne]
    simp only [hresult, hafter, hloop] at hsame
    cases hsame
  | shutdown exit =>
    rw [hloop] at hsettled
    have htakes := Takes.flushInto l.client.endpoint.stream hroom
    have hsame := congrArg (fun l => l.client.loop)
      (hstuck _ (.clientShutdown exit hloop _ _ ⟨htakes.answers, htakes.room⟩))
    have hresult : (l.client.endpoint.stream.pollShutdownPayload
        (flushInto (capacity - l.toServer.length)) (.ready (.ok ()))).result = .ready (.ok ()) :=
      (flush_flushInto l.client.endpoint.stream _).2.2 (by rw [hsettled.1]; exact Nat.zero_le _)
    simp only [hresult, hloop] at hsame
    cases hsame
  | flush stdinOpen exit =>
    rw [hloop] at hsettled
    have hsame := hstuck _ (.clientFlush stdinOpen exit hloop _ _
      (Takes.flushInto l.client.endpoint.stream hroom))
    obtain ⟨htaken, -, hall⟩ := flush_flushInto l.client.endpoint.stream
      (capacity - l.toServer.length)
    have hunsent : l.client.endpoint.stream.unsent ≠ [] := by
      intro hunsent
      have hwaits := congrArg (fun l => l.client.loop) hsame
      simp only [hall (by rw [hunsent]; exact Nat.zero_le _), MainLoop.afterFlush, hloop] at hwaits
      split_ifs at hwaits <;> cases hwaits
    have hnone := taken_eq_nil (congrArg Link.toServer hsame)
    rw [htaken] at hnone
    have hfull := (List.take_eq_nil_iff.mp hnone).resolve_right hunsent
    cases stdinOpen with
    | true =>
      obtain ⟨-, rfl⟩ := hsettled
      exact .inr (.inr ⟨rfl, hunsent, by omega⟩)
    | false => exact absurd hsettled.1 hunsent

/-- The connection holds no more than it has room for. -/
def Within (capacity : ℕ) (l : Link C) : Prop :=
  l.toServer.length ≤ capacity ∧ l.toClient.length ≤ capacity

theorem Within.step {l' : Link C} (h : l.Within capacity) (hstep : Step V capacity l l') :
    l'.Within capacity := by
  have hdrop (fifo : Bytes) (n : ℕ) (hfifo : fifo.length ≤ capacity) :
      (fifo.drop n).length ≤ capacity := by
    rw [List.length_drop]
    omega
  cases hstep with
  | stdinLine | stdinEnd | serverLocal => exact h
  | clientRead => exact ⟨h.1, hdrop _ _ h.2⟩
  | serverRead => exact ⟨hdrop _ _ h.1, h.2⟩
  | clientWrite buf hloop answers htakes => exact ⟨htakes.room, h.2⟩
  | clientShutdown exit hloop answers poll htakes => exact ⟨htakes.room, h.2⟩
  | clientFlush stdinOpen exit hloop answers poll htakes => exact ⟨htakes.room, h.2⟩
  | serverWrite buf next hserving answers htakes => exact ⟨h.1, htakes.room⟩
  | serverFlush next hserving answers poll htakes => exact ⟨h.1, htakes.room⟩

theorem Within.run {l' : Link C} (h : l.Within capacity) (hrun : Run V capacity l l') :
    l'.Within capacity := by
  induction hrun with
  | refl => exact h
  | tail _ hstep ih => exact ih.step hstep

/-- If one side is stuck, the other side is the reason. -/
theorem Keeps.blocked_of_stuck (hV : V.Correct C) (h : l.Keeps sent done)
    (hwithin : l.Within capacity)
    (hcapacity : 0 < capacity) (hstuck : l.Stuck V capacity) (hloop : l.client.loop ≠ .returned) :
    l.Blocked capacity := by
  have hsettled := h.settled
  have hserver : l.server.serving = .returned ∨
      (l.server.serving = .nextLine ∧ l.toServer = [] ∧ l.ended = false) ∨
      ∃ next, l.server.serving = .runCommandLine (.flush next) ∧
        l.server.endpoint.stream.unsent ≠ [] ∧ capacity ≤ l.toClient.length := by
    cases hserving : l.server.serving with
    | returned => exact .inl rfl
    | nextLine => exact .inr (.inl ⟨rfl, h.waits_of_stuck hV hserving hstuck⟩)
    | runCommandLine phase =>
      obtain ⟨⟨next, rfl⟩, hunsent, hfull⟩ := h.flush_of_stuck hserving hwithin.2 hstuck
      exact .inr (.inr ⟨next, rfl, hunsent, hfull⟩)
  rcases h.client_of_stuck hV hwithin.1 hstuck with
    hreturned | ⟨hselect, hnone, hopen⟩ | ⟨hflush, hunsent, hfull⟩
  · exact absurd hreturned hloop
  · -- A client that reads takes the server's bytes, and one that sends no more has ended.
    rw [hselect] at hsettled
    rcases hserver with hreturned | ⟨-, -, hended⟩ | ⟨next, -, -, hfull⟩
    · exact absurd hreturned hopen
    · exact absurd (hended.symm.trans hsettled.2) (by simp)
    · rw [hnone, List.length_nil] at hfull
      omega
  · -- A server that reads takes the client's.
    rw [hflush] at hsettled
    rcases hserver with hreturned | ⟨-, hnone, -⟩ | ⟨next, hserving, hunsent', hfull'⟩
    · exact absurd ((h.finished hreturned).1.symm.trans hsettled.1) (by simp)
    · rw [hnone, List.length_nil] at hfull
      omega
    · exact ⟨hflush, hunsent, hfull, ⟨next, hserving⟩, hunsent', hfull'⟩

end Stuck

variable {V : Verifier} {capacity : ℕ} {clientKey serverKey : C.Ed25519KeyPair}
  {clientNow serverNow : Instant} {l : Link C}

/-! ## A session that fills its connection -/

section Fills

/-- A user who types lines fills the connection, if the server does not read. -/
theorem exists_clientFull (room : ℕ) (hloop : l.client.loop = .select true)
    (hbounded : l.client.endpoint.stream.Bounded) (hunsent : l.client.endpoint.stream.unsent = [])
    (hroom : l.toServer.length + room = capacity) :
    ∃ l', Run V capacity l l' ∧ l'.server = l.server ∧ l'.toClient = l.toClient ∧
      l'.client.loop = .flush true false ∧ l'.client.endpoint.stream.unsent ≠ [] ∧
      l'.toServer.length = capacity := by
  induction room using Nat.strong_induction_on generalizing l with
  | h room ih =>
    have hrun := run_typed (V := V) hloop hbounded hunsent (by omega : l.toServer.length ≤ capacity)
    obtain ⟨hfifo, hbounded', hframe⟩ := typed_facts hbounded hunsent
    have hwithin : l.typed.toServer.length ≤ capacity := by rw [hfifo]; omega
    have hnext := hrun.tail (.clientFlush true false rfl _ _
      (Takes.flushInto l.typed.client.endpoint.stream hwithin))
    rcases flushInto_cases hbounded' hwithin with
      ⟨hresult, hnone, htaken, hlength⟩ | ⟨hresult, hsome, hfull⟩
    · -- The line is on its way, and there is less room for the next.
      rw [hresult] at hnext
      have hpos := List.length_pos_iff.mpr
        (payloadFrame_ne_nil l.client.endpoint.stream.packetSign (lineBytes []))
      rw [List.length_append, hfifo, hframe] at hlength
      let call : SendCall :=
        .flush (flushInto (capacity - l.typed.toServer.length)) (.ready (.ok ()))
      have hless : (l.typed.clientSend call (.select true)).toServer.length +
          (room - (payloadFrame l.client.endpoint.stream.packetSign (lineBytes [])).length) =
          capacity := by
        rw [show (l.typed.clientSend call (.select true)).toServer = _ from htaken,
          List.length_append, hfifo, hframe]
        omega
      have hsmaller : room -
          (payloadFrame l.client.endpoint.stream.packetSign (lineBytes [])).length < room := by
        omega
      obtain ⟨l', hrun', hserver, htoClient, hrest⟩ :=
        ih (l := l.typed.clientSend call (.select true)) _ hsmaller rfl
          (Endpoint.sameKeys_afterSend hbounded' call).bounded hnone hless
      exact ⟨l', hnext.trans hrun', hserver, htoClient, hrest⟩
    · rw [hresult] at hnext
      exact ⟨_, hnext, rfl, rfl, rfl, hsome, hfull⟩

/-- The server has a byte of the command's output in its stream. -/
def printed (l : Link C) : Link C :=
  l.serverSend (.write [0] []) { l.server with
    endpoint := l.server.endpoint.afterSend (.write [0] [])
    serving := .runCommandLine (.flush (.select true true))
    output := (l.server.output.afterPipe .stdout (.ready (.ok [0]))).afterSend (some [0]) }

theorem run_printed (hserving : l.server.serving = .runCommandLine (.select true true))
    (hstatus : l.server.output.status = none) (hbounded : l.server.endpoint.stream.Bounded)
    (hunsent : l.server.endpoint.stream.unsent = []) (hroom : l.toClient.length ≤ capacity) :
    Run V capacity l l.printed := by
  have hwaits : ¬ l.server.Sending := by rw [ServerProgram.Sending, hserving]; exact id
  have hshort (data : Bytes) (hdata : (.ready (.ok [0]) : Poll (Res Bytes)) = .ready (.ok data)) :
      data.length ≤ 4096 := by
    obtain rfl := Except.ok.inj (Poll.ready.inj hdata)
    decide
  have hread : Run V capacity l _ := .single (.serverLocal _ hwaits
    (.pipe true true hserving .stdout rfl (.ready (.ok [0])) hshort)
    ⟨by rintro _ ⟨⟩, fun status hsome => absurd (hstatus.symm.trans hsome) (by simp)⟩)
  have hresult := Shell.pollWritePayload_of_unsent hunsent (List.cons_ne_nil (0 : UInt8) [])
  have hwrite := hread.tail (.serverWrite [0] (.flush (.select true true)) rfl []
    (Takes.write hbounded hunsent (List.cons_ne_nil _ _) hroom))
  simp only [ServerProgram.write, hresult] at hwrite
  exact hwrite

/-- A command that prints fills the connection, if the client does not read. -/
theorem exists_serverFull (room : ℕ)
    (hserving : l.server.serving = .runCommandLine (.select true true))
    (hstatus : l.server.output.status = none) (hbounded : l.server.endpoint.stream.Bounded)
    (hunsent : l.server.endpoint.stream.unsent = []) (hroom : l.toClient.length + room = capacity) :
    ∃ l', Run V capacity l l' ∧ l'.client = l.client ∧ l'.toServer = l.toServer ∧
      l'.server.serving = .runCommandLine (.flush (.select true true)) ∧
      l'.server.endpoint.stream.unsent ≠ [] ∧ l'.toClient.length = capacity := by
  induction room using Nat.strong_induction_on generalizing l with
  | h room ih =>
    have hrun := run_printed (V := V) hserving hstatus hbounded hunsent
      (by omega : l.toClient.length ≤ capacity)
    obtain ⟨htaken, hframe⟩ := send_write_of_unsent hbounded hunsent
      (List.cons_ne_nil (0 : UInt8) [])
    have hfifo : l.printed.toClient = l.toClient := by
      change l.toClient ++ _ = _
      rw [htaken, List.append_nil]
    have hbounded' : l.printed.server.endpoint.stream.Bounded :=
      (Endpoint.sameKeys_afterSend hbounded (.write [0] [])).bounded
    have hwithin : l.printed.toClient.length ≤ capacity := by rw [hfifo]; omega
    have hnext := hrun.tail (.serverFlush (.select true true) rfl _ _
      (Takes.flushInto l.printed.server.endpoint.stream hwithin))
    have hunsent' : l.printed.server.endpoint.stream.unsent =
      payloadFrame l.server.endpoint.stream.packetSign [0] := hframe
    rcases flushInto_cases hbounded' hwithin with
      ⟨hresult, hnone, htaken, hlength⟩ | ⟨hresult, hsome, hfull⟩
    · rw [hresult] at hnext
      have hpos := List.length_pos_iff.mpr
        (payloadFrame_ne_nil l.server.endpoint.stream.packetSign [0])
      rw [List.length_append, hfifo, hunsent'] at hlength
      let call : SendCall :=
        .flush (flushInto (capacity - l.printed.toClient.length)) (.ready (.ok ()))
      let next : Link C := l.printed.serverSend call { l.printed.server with
        endpoint := l.printed.server.endpoint.afterSend call
        serving := .runCommandLine (.select true true) }
      have hless : next.toClient.length +
          (room - (payloadFrame l.server.endpoint.stream.packetSign [0]).length) = capacity := by
        rw [show next.toClient = _ from htaken, List.length_append, hfifo, hunsent']
        omega
      have hsmaller : room -
          (payloadFrame l.server.endpoint.stream.packetSign [0]).length < room := by
        omega
      obtain ⟨l', hrun', hclient, htoServer, hrest⟩ := ih (l := next) _ hsmaller rfl hstatus
        (Endpoint.sameKeys_afterSend hbounded' call).bounded hnone hless
      exact ⟨l', hnext.trans hrun', hclient, htoServer, hrest⟩
    · rw [hresult] at hnext
      exact ⟨_, hnext, rfl, rfl, rfl, hsome, hfull⟩

end Fills

/-- Both directions are filled: the client's while the command has not printed, and then the
command's. -/
theorem exists_blocked (hV : V.Correct C) (hcapacity : 138 ≤ capacity)
    (clientKey serverKey : C.Ed25519KeyPair) (clientNow serverNow : Instant) :
    ∃ l, Run V capacity (start clientKey serverKey clientNow serverNow) l ∧ l.Blocked capacity := by
  obtain ⟨l, hrun, ⟨hloop, hbounded, hunsent, hroom⟩,
    ⟨hserving, hstatus, hserver, hdrained, hspace⟩, -⟩ :=
      exists_running hV hcapacity clientKey serverKey clientNow serverNow
  obtain ⟨l₁, hrun₁, hserver₁, htoClient, hloop₁, hunsent₁, hfull₁⟩ :=
    exists_clientFull (V := V) (capacity - l.toServer.length) hloop hbounded hunsent
      (Nat.add_sub_of_le hroom)
  rw [← hserver₁] at hserving hstatus hserver hdrained
  rw [← htoClient] at hspace
  obtain ⟨l₂, hrun₂, hclient₂, htoServer, hserving₂, hunsent₂, hfull₂⟩ :=
    exists_serverFull (V := V) (capacity - l₁.toClient.length) hserving hstatus hserver hdrained
      (Nat.add_sub_of_le hspace)
  exact ⟨l₂, (hrun.trans hrun₁).trans hrun₂, by rw [hclient₂, hloop₁],
    by rw [hclient₂]; exact hunsent₁, by rw [htoServer, hfull₁], ⟨_, hserving₂⟩, hunsent₂,
    hfull₂.ge⟩

/-! ## Where a session hangs -/

/-- A session hangs exactly when both programs have returned or both are in a flush without
room. -/
theorem stuck_iff (hV : V.Correct C) (hcapacity : 0 < capacity)
    (hrun : Run V capacity (start clientKey serverKey clientNow serverNow) l) :
    l.Stuck V capacity ↔
      l.client.loop = .returned ∧ l.server.serving = .returned ∨ l.Blocked capacity := by
  obtain ⟨sent, done, h⟩ := (keeps_start clientKey serverKey clientNow serverNow).run hV hrun
  have hempty : (start clientKey serverKey clientNow serverNow).Within capacity :=
    ⟨Nat.zero_le _, Nat.zero_le _⟩
  constructor
  · intro hstuck
    by_cases hloop : l.client.loop = .returned
    · exact .inl ⟨hloop, (h.answered_of_returned hloop).1⟩
    · exact .inr (h.blocked_of_stuck hV (hempty.run hrun) hcapacity hstuck hloop)
  · rintro (⟨hloop, hserving⟩ | hblocked)
    · exact stuck_of_returned hloop hserving
    · exact hblocked.stuck

/-- A session that has just begun goes on, and one that has filled its connection does not. -/
theorem stuck_iff_sample :
    ¬ (start (C := Crypto.sample) (0 : UInt8) (0 : UInt8) 0 0).Stuck .acceptAll 65536 ∧
    ∃ l : Link Crypto.sample, Run .acceptAll 65536 (start (0 : UInt8) (0 : UInt8) 0 0) l ∧
      l.Stuck .acceptAll 65536 := by
  have hV := Verifier.correct_acceptAll Crypto.sample
  constructor
  · refine (stuck_iff hV (by decide) .refl).not.mpr ?_
    rintro (⟨hloop, -⟩ | hblocked)
    · cases hloop
    · cases hblocked.loop
  · obtain ⟨l, hrun, hblocked⟩ := exists_blocked hV (by decide : 138 ≤ 65536)
      (0 : UInt8) (0 : UInt8) 0 0
    exact ⟨l, hrun, (stuck_iff hV (by decide) hrun).mpr (.inr hblocked)⟩

/-- For every capacity from one short frame on, a user who types lines and a command that prints
can bring a session to a state from which neither program ever goes on. -/
theorem hang_reachable (hV : V.Correct C) (hcapacity : 138 ≤ capacity)
    (clientKey serverKey : C.Ed25519KeyPair) (clientNow serverNow : Instant) :
    ∃ l, Run V capacity (start clientKey serverKey clientNow serverNow) l ∧ l.Blocked capacity ∧
      ∀ l', Run V capacity l l' → l' = l := by
  obtain ⟨l, hrun, hblocked⟩ := exists_blocked hV hcapacity clientKey serverKey clientNow serverNow
  refine ⟨l, hrun, hblocked, fun l' hrun' => ?_⟩
  induction hrun' with
  | refl => rfl
  | tail _ hstep ih =>
    subst ih
    exact hblocked.stuck _ hstep

theorem hang_reachable_sample : ∃ l : Link Crypto.sample,
    Run .acceptAll 65536 (start (0 : UInt8) (0 : UInt8) 0 0) l ∧ l.Blocked 65536 ∧
      ∀ l', Run .acceptAll 65536 l l' → l' = l :=
  hang_reachable (Verifier.correct_acceptAll _) (by decide) _ _ 0 0

end Link

end Axsh

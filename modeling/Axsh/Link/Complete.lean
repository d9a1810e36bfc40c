/-
# Everything is run and printed

No program fails on its own over a faithful connection. Every line that the user types is
on its way, in front of the handler, or was run; what was written of the commands is on its way,
or was printed. So a session that rests has run all lines and printed everything, and the two
programs return one after the other with that.
-/

import Axsh.Link.Runs

set_option autoImplicit false

namespace Axsh

open PayloadStream
open Hdlc (ReadResult)

variable {C : Crypto}

/-! ## What each program keeps -/

namespace MainLoop

/-- The lines that the loop has and that its stream has not. -/
def Owes : MainLoop → List Text → Prop
  | .writeAll buf, rest => ∃ line, rest = [line] ∧ buf = lineBytes line ∧ buf.length ≤ 32700
  | .select _, rest | .shutdown _, rest | .flush _ _, rest | .returned, rest => rest = []

/-- A flush follows every write, and a shutdown ends them. -/
def Settled (unsent : Bytes) (ended : Bool) : MainLoop → Prop
  | .select stdinOpen => unsent = [] ∧ ended = !stdinOpen
  | .writeAll _ => unsent = [] ∧ ended = false
  | .shutdown exit => unsent = [] ∧ ended = exit
  | .flush true exit => ended = false ∧ exit = false
  | .flush false _ | .returned => unsent = [] ∧ ended = true

/-- The loop has read the end of its stream. -/
def Exits : MainLoop → Prop
  | .shutdown true | .flush _ true | .returned => True
  | _ => False

theorem Settled.unsent {unsent : Bytes} {loop : MainLoop} (h : loop.Settled unsent true) :
    unsent = [] := by
  match loop, h with
  | .select _, h | .shutdown _, h | .flush false _, h | .returned, h => exact h.1

end MainLoop

namespace CommandLine

/-- A flush follows every write, some pipe is open while they are read, and nothing has failed. -/
def Clear (unsent : Bytes) : CommandLine → Prop
  | .spawn | .wait | .returned (.ok ()) => unsent = []
  | .select stdoutOpen stderrOpen => unsent = [] ∧ (stdoutOpen || stderrOpen) = true
  | .writeAll _ next => unsent = [] ∧ next.Clear []
  | .flush next => next.Clear []
  | .returned (.error _) => False

theorem clear_loop (stdoutOpen stderrOpen : Bool) : (loop stdoutOpen stderrOpen).Clear [] := by
  unfold loop
  split_ifs with hopen
  · exact ⟨rfl, hopen⟩
  · rfl

theorem clear_afterPipe {stdoutOpen stderrOpen : Bool} (hopen : (stdoutOpen || stderrOpen) = true)
    (pipe : PipeEnd) {result : Poll (Res Bytes)}
    (hok : ∀ e, afterPipe stdoutOpen stderrOpen pipe result ≠ .returned (.error e)) :
    (afterPipe stdoutOpen stderrOpen pipe result).Clear [] := by
  cases result using Poll.resultCases with
  | pending => exact ⟨rfl, hopen⟩
  | error e => exact absurd rfl (hok e)
  | ok data =>
    simp only [afterPipe]
    split_ifs
    · cases pipe <;> exact clear_loop _ _
    · exact ⟨rfl, clear_loop _ _⟩

theorem clear_afterWait {result : Poll (Res ExitStatus)}
    (hok : ∀ e, afterWait result ≠ .returned (.error e)) : (afterWait result).Clear [] := by
  cases result using Poll.resultCases with
  | pending => rfl
  | error e => exact absurd rfl (hok e)
  | ok status => exact ⟨rfl, rfl⟩

end CommandLine

/-- What the handler waits for, with nothing left in the stream unless it is in a flush. -/
def Serving.Clear (unsent : Bytes) : Serving → Prop
  | .nextLine | .returned => unsent = []
  | .runCommandLine phase => phase.Clear unsent

/-- The lines `sent` are those that the stream has accepted. -/
structure ClientProgram.Typed (c : ClientProgram C) (sent : List Text) : Prop where
  clean : ∀ line ∈ c.lines, '\n' ∉ line
  accepted : c.endpoint.accepted = Lines.join 0x0a (sent.map utf8)
  owes : ∃ rest, c.lines = sent ++ rest ∧ c.loop.Owes rest

/-- The lines `done` are those that were run. -/
structure ServerProgram.Scanned (s : ServerProgram C) (done : List Text) : Prop where
  clean : ∀ line ∈ done, '\n' ∉ line
  delivered : s.endpoint.delivered =
    Lines.join 0x0a (done.map utf8) ++ (s.reader.line ++ s.reader.available)
  line : 0x0a ∉ s.reader.line
  commands : s.commands = done.map stripCr

theorem ClientProgram.Typed.clean_sent {c : ClientProgram C} {sent : List Text}
    (h : c.Typed sent) : ∀ line ∈ sent, '\n' ∉ line := by
  obtain ⟨rest, hlines, -⟩ := h.owes
  exact fun line hline => h.clean line (hlines ▸ List.mem_append_left rest hline)

namespace ServerProgram

section Scanned

variable {s : ServerProgram C} {sent done : List Text}

/-- What was delivered is the beginning of some lines, so the next line is one of them. -/
theorem Scanned.exists_line (h : s.Scanned done) (hsent : ∀ line ∈ sent, '\n' ∉ line)
    (hfront : s.endpoint.delivered <+: Lines.join 0x0a (sent.map utf8)) {bytes rest : Bytes}
    (hbytes : 0x0a ∉ bytes)
    (hdelivered : s.endpoint.delivered =
      Lines.join 0x0a (done.map utf8) ++ (bytes ++ 0x0a :: rest)) :
    ∃ line, '\n' ∉ line ∧ bytes = utf8 line := by
  have hclean : Lines.Clean 0x0a (done.map utf8 ++ [bytes]) :=
    (Shell.clean_utf8 h.clean).append fun line hline => List.mem_singleton.mp hline ▸ hbytes
  have hsplit : s.endpoint.delivered = Lines.join 0x0a (done.map utf8 ++ [bytes]) ++ rest := by
    rw [hdelivered, Lines.join_append]
    simp
  rw [hsplit] at hfront
  have hmem : bytes ∈ sent.map utf8 :=
    (Lines.isPrefix_of_join_append hclean (Shell.clean_utf8 hsent) hfront).subset (by simp)
  obtain ⟨line, hline, rfl⟩ := List.mem_map.mp hmem
  exact ⟨line, hsent line hline, rfl⟩

/-- The line reader finds a newline and the handler runs the line, or it takes all there is. -/
theorem Scanned.scan (h : s.Scanned done) (hsent : ∀ line ∈ sent, '\n' ∉ line)
    (hfront : s.endpoint.delivered <+: Lines.join 0x0a (sent.map utf8)) :
    ∃ done', s.scan.Scanned done' ∧
      (s.scan.serving = .runCommandLine .spawn ∨ s.scan.serving = s.serving) := by
  by_cases hmem : 0x0a ∈ s.reader.available
  · obtain ⟨front, rest, havailable, hfrontClean⟩ := List.eq_append_cons_of_mem hmem
    obtain ⟨htake, hdrop⟩ := Lines.takeWhile_dropWhile_append hfrontClean rest
    have hbytes : 0x0a ∉ s.reader.line ++ front := List.not_mem_append h.line hfrontClean
    have hdelivered : s.endpoint.delivered =
        Lines.join 0x0a (done.map utf8) ++ (s.reader.line ++ front ++ 0x0a :: rest) := by
      rw [h.delivered, havailable, List.append_assoc s.reader.line]
    obtain ⟨line, hline, hutf8⟩ := h.exists_line hsent hfront hbytes hdelivered
    have hscan : s.scan = { s with
        reader := ⟨rest, []⟩, serving := .runCommandLine .spawn
        commands := s.commands ++ [stripCr line] } := by
      rw [ServerProgram.scan, if_pos hmem]
      simp only [havailable, htake, hdrop]
      rw [hutf8, ServerProgram.finish, ← lineBytes, Shell.finishLine_lineBytes]
    rw [hscan]
    refine ⟨done ++ [line], ⟨?_, ?_, List.not_mem_nil, ?_⟩, .inl rfl⟩
    · intro later hlater
      rcases List.mem_append.mp hlater with hlater | hlater
      · exact h.clean later hlater
      · exact List.mem_singleton.mp hlater ▸ hline
    · change s.endpoint.delivered = _
      rw [hdelivered, hutf8, List.map_append, Lines.join_append]
      simp
    · change s.commands ++ _ = _
      rw [h.commands, List.map_append, List.map_singleton]
  · have hscan : s.scan = { s with reader := ⟨[], s.reader.line ++ s.reader.available⟩ } :=
      if_neg hmem
    rw [hscan]
    refine ⟨done, ⟨h.clean, ?_, List.not_mem_append h.line hmem, h.commands⟩, .inr rfl⟩
    change s.endpoint.delivered = _
    rw [h.delivered, List.append_nil]

/-- When the lines are delivered and scanned to the end, all of them were run, and there is no
part of a line left. -/
theorem Scanned.done_eq (h : s.Scanned done) (hsent : ∀ line ∈ sent, '\n' ∉ line)
    (hdelivered : s.endpoint.delivered = Lines.join 0x0a (sent.map utf8))
    (havailable : s.reader.available = []) : done = sent ∧ s.reader.line = [] := by
  have hpart := h.delivered
  rw [hdelivered, havailable, List.append_nil] at hpart
  have hsplit := Lines.split_join (Shell.clean_utf8 hsent) (List.not_mem_nil : (0x0a : UInt8) ∉ [])
  rw [List.append_nil, hpart, Lines.split_join (Shell.clean_utf8 h.clean) h.line] at hsplit
  obtain ⟨hlines, hline⟩ := Prod.mk.inj hsplit
  exact ⟨List.map_injective_iff.mpr utf8_injective hlines, hline⟩

end Scanned

end ServerProgram

namespace Link

/-! ## What the session keeps -/

structure Keeps (l : Link C) (sent done : List Text) : Prop where
  up : l.up.Ordered
  down : l.down.Ordered
  typed : l.client.Typed sent
  settled : l.client.loop.Settled l.client.endpoint.stream.unsent l.ended
  exits : l.client.loop.Exits → l.server.serving = .returned ∧
    l.client.endpoint.delivered = l.server.endpoint.accepted
  scanned : l.server.Scanned done
  serves : l.server.Serves
  clear : l.server.serving.Clear l.server.endpoint.stream.unsent
  display : ∀ status, l.server.output.status = some status → status.display.length ≤ 4096
  finished : l.server.serving = .returned → l.ended = true ∧ done = sent ∧
    l.server.output = .empty ∧ l.server.commands.length = l.server.outputs.length

theorem keeps_start (clientKey serverKey : C.Ed25519KeyPair) (clientNow serverNow : Instant) :
    (start clientKey serverKey clientNow serverNow).Keeps [] [] where
  up := ⟨_, _, _, Pipe.inFlight_start clientKey _ _ serverNow⟩
  down := ⟨_, _, _, Pipe.inFlight_start serverKey _ _ clientNow⟩
  typed := ⟨List.forall_mem_nil _, rfl, [], rfl, rfl⟩
  settled := ⟨rfl, rfl⟩
  exits := False.elim
  scanned := ⟨by simp, rfl, List.not_mem_nil, rfl⟩
  serves := ServerProgram.serves_new serverKey _
  clear := rfl
  display := by rintro _ ⟨⟩
  finished := by rintro ⟨⟩

/-! ## The steps of the client -/

section Steps

variable {V : Verifier} {capacity : ℕ} {l l' : Link C} {sent done : List Text}

/-- A server that has returned has nothing unsent. -/
theorem Keeps.unsent_of_returned (h : l.Keeps sent done)
    (hreturned : l.server.serving = .returned) : l.down.sender.unsent = [] := by
  have hclear := h.clear
  rw [hreturned] at hclear
  exact hclear

/-- Nor has a client whose write side is shut down. -/
theorem Keeps.unsent_of_ended (h : l.Keeps sent done) (hended : l.ended = true) :
    l.up.sender.unsent = [] := by
  have hsettled := h.settled
  rw [hended] at hsettled
  exact hsettled.unsent

/-- A call that signs nothing leaves nothing unsent behind if nothing was. -/
theorem unsent_of_drains {before next : PayloadStream C} {taken : Bytes}
    (h : Drains before next taken) (hunsent : before.unsent = []) : next.unsent = [] := by
  have hbytes := h.unsent_eq
  rw [hunsent] at hbytes
  exact (List.append_eq_nil_iff.mp hbytes.symm).2

theorem ne_error_of_failureOf {α : Type} {result : Poll (Res α)} (h : failureOf result = none)
    (e : Failure) : result ≠ .ready (.error e) := by
  rintro rfl
  cases h

theorem Keeps.stdinLine (h : l.Keeps sent done) (hloop : l.client.loop = .select true) {line : Text}
    (hline : '\n' ∉ line) (hshort : (lineBytes line).length ≤ 32700) :
    Keeps { l with
      client := { l.client with
        loop := .writeAll (lineBytes line), lines := l.client.lines ++ [line] } } sent done := by
  have hsettled := h.settled
  obtain ⟨rest, hlines, howes⟩ := h.typed.owes
  rw [hloop] at hsettled howes
  obtain rfl : rest = [] := howes
  refine { h with
    typed := ⟨?_, h.typed.accepted, [line], ?_, line, rfl, rfl, hshort⟩
    settled := hsettled
    exits := False.elim }
  · intro later hlater
    rcases List.mem_append.mp hlater with hlater | hlater
    · exact h.typed.clean later hlater
    · exact List.mem_singleton.mp hlater ▸ hline
  · change l.client.lines ++ [line] = _
    rw [hlines, List.append_nil]

theorem Keeps.stdinEnd (h : l.Keeps sent done) (hloop : l.client.loop = .select true) :
    Keeps { l with client := { l.client with loop := .shutdown false } } sent done := by
  have hsettled := h.settled
  obtain ⟨rest, hlines, howes⟩ := h.typed.owes
  rw [hloop] at hsettled howes
  exact { h with
    typed := ⟨h.typed.clean, h.typed.accepted, rest, hlines, howes⟩
    settled := hsettled
    exits := False.elim }

/-- A call of the client's stream, by what its loop and its lines are behind it. -/
theorem Keeps.clientSend (h : l.Keeps sent done) {call : SendCall}
    (htakes : Takes capacity l.toServer l.client.endpoint.stream call) (hshort : Pipe.Short call)
    {loop : MainLoop} {ended : Bool} {sent' : List Text}
    (htyped : (l.clientSend call loop).client.Typed sent')
    (hsettled : loop.Settled (l.client.endpoint.afterSend call).stream.unsent ended)
    (hexits : loop.Exits → l.client.loop.Exits)
    (hended : l.ended = true → ended = true ∧ sent' = sent) :
    Keeps { l.clientSend call loop with ended } sent' done := by
  have hbounded := h.up.senderBounded
  have hup : (l.up.afterSend call).Ordered := (h.up.afterSend htakes.answers hshort).1
  have hdown := h.down.receiver (Endpoint.sameRead_afterSend hbounded call)
    (Endpoint.sameKeys_afterSend hbounded call).bounded
  refine { h with
    up := hup
    down := hdown
    typed := htyped
    settled := hsettled
    exits := fun hloop => h.exits (hexits hloop)
    finished := fun hreturned => ?_ }
  obtain ⟨hend, hdone, hrest⟩ := h.finished hreturned
  obtain ⟨hnow, rfl⟩ := hended hend
  exact ⟨hnow, hdone, hrest⟩

/-- A write takes the whole line, or waits. -/
theorem Keeps.clientWrite (h : l.Keeps sent done) {buf : Bytes}
    (hloop : l.client.loop = .writeAll buf) {answers : List WriteResult}
    (htakes : Takes capacity l.toServer l.client.endpoint.stream (.write buf answers)) :
    ∃ sent', Keeps (l.clientSend (.write buf answers)
      (.afterWrite buf (l.client.endpoint.stream.pollWritePayload buf answers).result)) sent'
      done := by
  have hsettled := h.settled
  obtain ⟨rest, hlines, howes⟩ := h.typed.owes
  rw [hloop] at hsettled howes
  obtain ⟨hunsent, hopen⟩ := hsettled
  obtain ⟨line, rfl, rfl, hshort⟩ := howes
  have hne : lineBytes line ≠ [] := by simp [lineBytes]
  have hbounded := h.up.senderBounded
  have hok := ne_error_of_failureOf (h.up.afterSend htakes.answers hshort).2
  have hsends := (send_spec hbounded (.write (lineBytes line) answers)).1
  have hwhole := (pollWritePayload_spec hbounded.write (lineBytes line) answers).2
  have hnotEnded {sent' : List Text} : l.ended = true → l.ended = true ∧ sent' = sent :=
    fun hend => absurd (hopen.symm.trans hend) (by simp)
  cases hresult : (l.client.endpoint.stream.pollWritePayload (lineBytes line) answers).result
    using Poll.resultCases with
  | error e => exact absurd hresult (hok e)
  | pending =>
    have hsigned : (l.client.endpoint.stream.send (.write (lineBytes line) answers)).signed =
        none := by
      simp only [send, hresult, signedByWrite]
    rw [show (l.up.sender.send (.write (lineBytes line) answers)).signed = none from hsigned]
      at hsends
    refine ⟨sent, h.clientSend htakes hshort ⟨h.typed.clean, ?_, [line], hlines, line, rfl,
      rfl, hshort⟩ ⟨unsent_of_drains hsends hunsent, hopen⟩ False.elim hnotEnded⟩
    simp [Link.clientSend, Endpoint.afterSend, send, hresult, acceptedBy, h.typed.accepted]
  | ok n =>
    obtain rfl := hwhole n hresult
    have hafter : MainLoop.afterWrite (lineBytes line) (.ready (.ok (lineBytes line).length)) =
        .flush true false := by
      simp [MainLoop.afterWrite, hne]
    rw [hafter]
    refine ⟨sent ++ [line], h.clientSend htakes hshort ⟨h.typed.clean, ?_, [], ?_, rfl⟩
      ⟨hopen, rfl⟩ False.elim hnotEnded⟩
    · have haccepted : (l.client.endpoint.stream.send (.write (lineBytes line) answers)).accepted =
          lineBytes line := by
        simp only [send, hresult, acceptedBy, List.take_length]
      change l.client.endpoint.accepted ++ _ = _
      rw [haccepted, h.typed.accepted, List.map_append, Lines.join_append]
      simp [lineBytes]
    · change l.client.lines = _
      rw [hlines, List.append_nil]

/-- A call that signs nothing, of a loop that owes nothing. -/
theorem Keeps.clientDrain (h : l.Keeps sent done) {call : SendCall}
    (htakes : Takes capacity l.toServer l.client.endpoint.stream call) (hshort : Pipe.Short call)
    (haccepted : (l.client.endpoint.stream.send call).accepted = [])
    {loop : MainLoop} {ended : Bool}
    (howes : ∀ rest, l.client.loop.Owes rest → loop.Owes rest)
    (hsettled : loop.Settled (l.client.endpoint.afterSend call).stream.unsent ended)
    (hexits : loop.Exits → l.client.loop.Exits) (hended : l.ended = true → ended = true) :
    Keeps { l.clientSend call loop with ended } sent done := by
  obtain ⟨rest, hlines, hrest⟩ := h.typed.owes
  refine h.clientSend htakes hshort ⟨h.typed.clean, ?_, rest, hlines, howes rest hrest⟩ hsettled
    hexits fun hend => ⟨hended hend, rfl⟩
  change l.client.endpoint.accepted ++ _ = _
  rw [haccepted, List.append_nil]
  exact h.typed.accepted

theorem Keeps.clientShutdown (h : l.Keeps sent done) {exit : Bool}
    (hloop : l.client.loop = .shutdown exit) {answers : List WriteResult} {poll : Poll (Res Unit)}
    (htakes : Takes capacity l.toServer l.client.endpoint.stream (.shutdown answers poll)) :
    Keeps { l.clientSend (.shutdown answers poll) (.afterShutdown exit
        (l.client.endpoint.stream.pollShutdownPayload answers poll).result) with
      ended := l.ended ||
        succeeded (l.client.endpoint.stream.pollShutdownPayload answers poll).result } sent
          done := by
  have hsettled := h.settled
  rw [hloop] at hsettled
  obtain ⟨hunsent, hopen⟩ := hsettled
  have hbounded := h.up.senderBounded
  have hok := ne_error_of_failureOf (h.up.afterSend htakes.answers trivial).2
  have hdrained := unsent_of_drains (pollDrainThen_spec hbounded.write answers poll).1 hunsent
  have howes (rest : List Text) (howes : l.client.loop.Owes rest) : rest = [] := by
    rw [hloop] at howes
    exact howes
  cases hresult : (l.client.endpoint.stream.pollShutdownPayload answers poll).result
    using Poll.resultCases with
  | error e => exact absurd hresult (hok e)
  | pending =>
    refine h.clientDrain htakes trivial rfl howes ⟨hdrained, ?_⟩
      (fun hexits => hloop ▸ hexits) fun hend => by rw [hend, Bool.true_or]
    rw [hopen]
    exact Bool.or_false exit
  | ok u =>
    refine h.clientDrain htakes trivial rfl howes ⟨hdrained, Bool.or_true _⟩ (fun hexits => ?_)
      fun _ => Bool.or_true _
    rw [hloop]
    match exit, hexits with
    | true, _ => trivial

/-- A flush that succeeds leaves nothing unsent, and the loop waits again or ends. -/
theorem Keeps.clientFlush (h : l.Keeps sent done) {stdinOpen exit : Bool}
    (hloop : l.client.loop = .flush stdinOpen exit) {answers : List WriteResult}
    {poll : Poll (Res Unit)}
    (htakes : Takes capacity l.toServer l.client.endpoint.stream (.flush answers poll)) :
    Keeps (l.clientSend (.flush answers poll) (.afterFlush stdinOpen exit
      (l.client.endpoint.stream.pollFlushPayload answers poll).result)) sent done := by
  have hsettled := h.settled
  rw [hloop] at hsettled
  have hbounded := h.up.senderBounded
  have hok := ne_error_of_failureOf (h.up.afterSend htakes.answers trivial).2
  obtain ⟨hdrains, hdone⟩ := pollDrainThen_spec hbounded.write answers poll
  have howes (rest : List Text) (howes : l.client.loop.Owes rest) : rest = [] := by
    rw [hloop] at howes
    exact howes
  cases hresult : (l.client.endpoint.stream.pollFlushPayload answers poll).result
    using Poll.resultCases with
  | error e => exact absurd hresult (hok e)
  | pending =>
    refine h.clientDrain htakes trivial rfl howes ?_
      (fun hexits => hloop ▸ hexits) id
    match stdinOpen, hsettled with
    | true, hsettled => exact hsettled
    | false, hsettled => exact ⟨unsent_of_drains hdrains hsettled.1, hsettled.2⟩
  | ok u =>
    have hunsent := hdone hresult
    cases exit with
    | true =>
      match stdinOpen, hsettled with
      | false, hsettled =>
        exact h.clientDrain htakes trivial rfl howes ⟨hunsent, hsettled.2⟩
          (fun _ => hloop ▸ trivial) id
    | false =>
      refine h.clientDrain htakes trivial rfl howes ⟨hunsent, ?_⟩ False.elim id
      match stdinOpen, hsettled with
      | true, hsettled => exact hsettled.1
      | false, hsettled => exact hsettled.2

/-- A read of the client ends only behind everything that the server wrote. -/
theorem Keeps.clientRead (hV : V.Correct C) (h : l.Keeps sent done) {stdinOpen : Bool}
    (hloop : l.client.loop = .select stdinOpen) {clock : ℕ → Instant}
    (hclock : NoIdleGap l.client.endpoint.stream.peerPacketVerify.lastSuccess clock)
    {answers : List ReadResult} (hmeets : Meets l.toClient (l.server.serving = .returned) answers) :
    Keeps (l.clientRead ⟨V, clock, 1024, answers⟩ (.afterRead stdinOpen
      (l.client.endpoint.stream.read ⟨V, clock, 1024, answers⟩).result)) sent done := by
  have hsettled := h.settled
  obtain ⟨rest, hlines, howes⟩ := h.typed.owes
  rw [hloop] at hsettled howes
  have hbounded := h.up.senderBounded
  have hunsent : (l.client.endpoint.afterRead ⟨V, clock, 1024, answers⟩).stream.unsent =
      l.client.endpoint.stream.unsent := Endpoint.unsent_afterRead hbounded _
  have hup := h.up.sender (Endpoint.sameWrite_afterRead hbounded ⟨V, clock, 1024, answers⟩)
    (Endpoint.sameKeys_afterRead hbounded _).bounded
  have hremaining : (1024 : ℕ) ≠ 0 := by omega
  obtain ⟨hdown, houtcome⟩ := h.down.afterRead hV h.unsent_of_returned hclock hremaining hmeets
  have hgoes (loop : MainLoop) (howes : loop.Owes rest)
      (hsettled : loop.Settled l.client.endpoint.stream.unsent l.ended)
      (hexits : loop.Exits → l.server.serving = .returned ∧
        (l.down.afterRead ⟨V, clock, 1024, answers⟩).delivered = l.server.endpoint.accepted) :
      Keeps (l.clientRead ⟨V, clock, 1024, answers⟩ loop) sent done :=
    { h with
      up := hup
      down := hdown
      typed := ⟨h.typed.clean, h.typed.accepted, rest, hlines, howes⟩
      settled := hunsent.symm ▸ hsettled
      exits := hexits }
  cases houtcome with
  | pending available hanswers hresult hrest =>
    rw [show (l.client.endpoint.stream.read _).result = _ from hresult]
    exact hgoes _ howes hsettled False.elim
  | data bytes hbytes hresult =>
    rw [show (l.client.endpoint.stream.read _).result = _ from hresult, MainLoop.afterRead,
      if_neg (List.isEmpty_iff.not.mpr hbytes)]
    exact hgoes _ howes hsettled False.elim
  | eof hreturned hresult hfifo hall =>
    rw [show (l.client.endpoint.stream.read _).result = _ from hresult]
    exact hgoes _ howes ⟨hsettled.1, (h.finished hreturned).1⟩ fun _ => ⟨hreturned, hall⟩

/-! ## The steps of the server -/

/-- The client has not read the end of a stream that is open. -/
theorem Keeps.not_exits (h : l.Keeps sent done) (hserving : l.server.serving ≠ .returned) :
    ¬ l.client.loop.Exits := fun hexits => hserving (h.exits hexits).1

/-- At the end of the stream every line was run, and there is no part of a line left. -/
theorem Keeps.serverRead (hV : V.Correct C) (h : l.Keeps sent done)
    (hserving : l.server.serving = .nextLine) (havailable : l.server.reader.available = [])
    {clock : ℕ → Instant}
    (hclock : NoIdleGap l.server.endpoint.stream.peerPacketVerify.lastSuccess clock)
    {answers : List ReadResult} (hmeets : Meets l.toServer (l.ended = true) answers) :
    (l.serverRead ⟨V, clock, 8192, answers⟩).Keeps sent done := by
  have hclear := h.clear
  have hphase := h.serves.phase
  rw [hserving] at hclear hphase
  obtain ⟨houtput, hcount, -⟩ := hphase
  have hbounded := h.down.senderBounded
  have hremaining : (8192 : ℕ) ≠ 0 := by omega
  obtain ⟨hup, houtcome⟩ := h.up.afterRead hV h.unsent_of_ended hclock hremaining hmeets
  have hdown := h.down.sender (Endpoint.sameWrite_afterRead hbounded ⟨V, clock, 8192, answers⟩)
    (Endpoint.sameKeys_afterRead hbounded _).bounded
  have hunsent : (l.server.endpoint.afterRead ⟨V, clock, 8192, answers⟩).stream.unsent = [] :=
    (Endpoint.unsent_afterRead hbounded _).trans hclear
  have hexits := h.not_exits (by rw [hserving]; simp)
  have hserves := h.serves.read hserving ⟨V, clock, 8192, answers⟩
  -- What holds of the session behind the read, by what the handler is then.
  have hgoes (next : ServerProgram C) (hread : l.server.read ⟨V, clock, 8192, answers⟩ = next)
      (hscanned : next.Scanned done) (hclear : next.serving.Clear next.endpoint.stream.unsent)
      (houtputs : next.output = l.server.output)
      (hfinished : next.serving = .returned → l.ended = true ∧ done = sent ∧
        next.output = .empty ∧ next.commands.length = next.outputs.length) :
      (l.serverRead ⟨V, clock, 8192, answers⟩).Keeps sent done := by
    subst hread
    have hendpoint := ServerProgram.read_endpoint l.server ⟨V, clock, 8192, answers⟩
    refine ⟨?_, ?_, h.typed, h.settled, fun hexits' => absurd hexits' hexits, hscanned, hserves,
      hclear, ?_, hfinished⟩
    · simp only [Link.serverRead, Link.up, hendpoint]
      exact hup
    · simp only [Link.serverRead, Link.down, hendpoint]
      exact hdown
    · simp only [Link.serverRead, houtputs]
      exact h.display
  have hdelivered := h.scanned.delivered
  rw [havailable, List.append_nil] at hdelivered
  cases houtcome with
  | pending available hanswers hresult hrest =>
    have hresult : (l.server.endpoint.stream.read ⟨V, clock, 8192, answers⟩).result = .pending :=
      hresult
    refine hgoes { l.server with endpoint := l.server.endpoint.afterRead ⟨V, clock, 8192, answers⟩ }
      (by simp only [ServerProgram.read, hresult]) ⟨h.scanned.clean, ?_, h.scanned.line,
        h.scanned.commands⟩ ?_ rfl fun hreturned => absurd (hserving.symm.trans hreturned) (by simp)
    · simp [Endpoint.afterRead, hresult, deliveredBy, h.scanned.delivered]
    · rw [hserving]
      exact hunsent
  | data bytes hbytes hresult =>
    have hresult : (l.server.endpoint.stream.read ⟨V, clock, 8192, answers⟩).result =
        .ready (.ok bytes) := hresult
    refine hgoes { l.server with
        endpoint := l.server.endpoint.afterRead ⟨V, clock, 8192, answers⟩
        reader := ⟨bytes, l.server.reader.line⟩ }
      (by simp [ServerProgram.read, hresult, hbytes]) ⟨h.scanned.clean, ?_, h.scanned.line,
        h.scanned.commands⟩ ?_ rfl fun hreturned => absurd (hserving.symm.trans hreturned) (by simp)
    · simp [Endpoint.afterRead, hresult, deliveredBy, hdelivered]
    · rw [hserving]
      exact hunsent
  | eof hend hresult hfifo hall =>
    have hresult : (l.server.endpoint.stream.read ⟨V, clock, 8192, answers⟩).result =
        .ready (.ok []) := hresult
    -- Everything that the client's stream accepted was delivered, and the client has no line left.
    have hsame : l.server.endpoint.delivered = Lines.join 0x0a (sent.map utf8) := by
      have hread : (l.up.afterRead ⟨V, clock, 8192, answers⟩).delivered =
          l.server.endpoint.delivered ++
            deliveredBy (l.server.endpoint.stream.read ⟨V, clock, 8192, answers⟩).result := rfl
      rw [hresult, hall] at hread
      exact (List.append_nil _).symm.trans (hread.symm.trans h.typed.accepted)
    obtain ⟨hdone, hline⟩ := h.scanned.done_eq h.typed.clean_sent hsame havailable
    refine hgoes { l.server with
        endpoint := l.server.endpoint.afterRead ⟨V, clock, 8192, answers⟩
        reader := ⟨[], []⟩, serving := .returned }
      (by simp [ServerProgram.read, hresult, ServerProgram.finish, finishLine, hline])
      ⟨h.scanned.clean, ?_, List.not_mem_nil, h.scanned.commands⟩ hunsent rfl
      fun _ => ⟨hend, hdone, houtput, hcount⟩
    simp [Endpoint.afterRead, hresult, deliveredBy, hdelivered, hline]

/-- A call of the server's stream, by what its handler is behind it. -/
theorem Keeps.serverSend (h : l.Keeps sent done) {phase : CommandLine}
    (hserving : l.server.serving = .runCommandLine phase) {call : SendCall}
    (htakes : Takes capacity l.toClient l.server.endpoint.stream call) (hshort : Pipe.Short call)
    {next : CommandLine} {output : Output}
    (hserves : ServerProgram.Serves { l.server with
      endpoint := l.server.endpoint.afterSend call, serving := .runCommandLine next, output })
    (hclear : next.Clear (l.server.endpoint.afterSend call).stream.unsent)
    (hstatus : output.status = l.server.output.status) :
    Keeps (l.serverSend call { l.server with
      endpoint := l.server.endpoint.afterSend call, serving := .runCommandLine next, output })
      sent done := by
  have hbounded := h.down.senderBounded
  have hup := h.up.receiver (Endpoint.sameRead_afterSend hbounded call)
    (Endpoint.sameKeys_afterSend hbounded call).bounded
  have hexits := h.not_exits (by rw [hserving]; simp)
  exact {
    up := hup
    down := (h.down.afterSend htakes.answers hshort).1
    typed := h.typed
    settled := h.settled
    exits := fun hexits' => absurd hexits' hexits
    scanned := ⟨h.scanned.clean, h.scanned.delivered, h.scanned.line, h.scanned.commands⟩
    serves := hserves
    clear := hclear
    display := fun status hsome => h.display status (hstatus.symm.trans hsome)
    finished := by rintro ⟨⟩ }

theorem Keeps.serverWrite (h : l.Keeps sent done) {buf : Bytes} {next : CommandLine}
    (hserving : l.server.serving = .runCommandLine (.writeAll buf next))
    {answers : List WriteResult}
    (htakes : Takes capacity l.toClient l.server.endpoint.stream (.write buf answers)) :
    Keeps (l.serverSend (.write buf answers) (l.server.write buf next answers)) sent done := by
  have hphase := h.serves.phase
  have hclear := h.clear
  rw [hserving] at hphase hclear
  obtain ⟨hrunning, -, hpaired, -⟩ := hphase
  obtain ⟨hunsent, hnext⟩ := hclear
  obtain ⟨hbuf, hdue⟩ := hrunning.mem_due
  have hshort : buf.length ≤ 32700 := hrunning.short.length_le hdue h.display
  have hbounded := h.down.senderBounded
  have hok := ne_error_of_failureOf (h.down.afterSend htakes.answers hshort).2
  have hsends := (send_spec hbounded (.write buf answers)).1
  have hwhole := (pollWritePayload_spec hbounded.write buf answers).2
  have hserves := h.serves.write hserving answers
  refine h.serverSend hserving htakes hshort hserves ?_ rfl
  cases hresult : (l.server.endpoint.stream.pollWritePayload buf answers).result
    using Poll.resultCases with
  | error e => exact absurd hresult (hok e)
  | pending =>
    have hsigned : (l.down.sender.send (.write buf answers)).signed = none := by
      change signedByWrite buf (l.server.endpoint.stream.pollWritePayload buf answers).result = none
      rw [hresult]
      rfl
    rw [hsigned] at hsends
    exact ⟨unsent_of_drains hsends hunsent, hnext⟩
  | ok n =>
    obtain rfl := hwhole n hresult
    have hafter : CommandLine.afterWrite buf next (.ready (.ok buf.length)) = next := by
      simp [CommandLine.afterWrite, hbuf]
    rw [hafter]
    -- A write is followed by a flush, in which something may be unsent.
    cases next with
    | flush next => exact hnext
    | spawn | select | wait | writeAll | returned => exact hpaired.elim

theorem Keeps.serverFlush (h : l.Keeps sent done) {next : CommandLine}
    (hserving : l.server.serving = .runCommandLine (.flush next)) {answers : List WriteResult}
    {poll : Poll (Res Unit)}
    (htakes : Takes capacity l.toClient l.server.endpoint.stream (.flush answers poll)) :
    Keeps (l.serverSend (.flush answers poll)
      { l.server with
        endpoint := l.server.endpoint.afterSend (.flush answers poll)
        serving := .runCommandLine
          (.afterFlush next (l.server.endpoint.stream.pollFlushPayload answers poll).result) })
      sent done := by
  have hclear := h.clear
  rw [hserving] at hclear
  have hbounded := h.down.senderBounded
  have hok := ne_error_of_failureOf (h.down.afterSend htakes.answers trivial).2
  have hdone := (pollDrainThen_spec hbounded.write answers poll).2
  refine h.serverSend hserving htakes trivial (h.serves.flush hserving answers poll) ?_ rfl
  cases hresult : (l.server.endpoint.stream.pollFlushPayload answers poll).result
    using Poll.resultCases with
  | error e => exact absurd hresult (hok e)
  | pending => exact hclear
  | ok u =>
    rw [show (l.server.endpoint.afterSend (.flush answers poll)).stream.unsent = [] from
      hdone hresult]
    exact hclear

/-- Behind any other step the handler waits for the stream, or for the operating system. -/
theorem Keeps.serverLocal (h : l.Keeps sent done) {server : ServerProgram C}
    (hlocal : ¬ l.server.Sending) (hstep : ServerProgram.Step Unread l.server server)
    (hran : server.Ran) : ∃ done', Keeps { l with server } sent done' := by
  have hclear := h.clear
  have hfront : l.server.endpoint.delivered <+: Lines.join 0x0a (sent.map utf8) :=
    h.typed.accepted ▸ h.up.delivered_isPrefix
  have hserves := h.serves.step hstep
  have hgoes {done' : List Text} (hserving : l.server.serving ≠ .returned)
      (hendpoint : server.endpoint = l.server.endpoint) (hscanned : server.Scanned done')
      (hclear : server.serving.Clear server.endpoint.stream.unsent)
      (hreturned : server.serving ≠ .returned) :
      ∃ done', Keeps { l with server } sent done' := by
    refine ⟨done', ?_, ?_, h.typed, h.settled,
      fun hexits => absurd hexits (h.not_exits hserving), hscanned, hserves, hclear, hran.display,
      fun hfinished => absurd hfinished hreturned⟩
    · change Pipe.Ordered ⟨_, server.endpoint.stream, _, _, server.endpoint.delivered⟩
      rw [hendpoint]
      exact h.up
    · change Pipe.Ordered ⟨server.endpoint.stream, _, _, server.endpoint.accepted, _⟩
      rw [hendpoint]
      exact h.down
  have hscanned (serving : Serving) (outputs : List Output) (output : Output) :
      ServerProgram.Scanned { l.server with serving, outputs, output } done :=
    ⟨h.scanned.clean, h.scanned.delivered, h.scanned.line, h.scanned.commands⟩
  cases hstep with
  | read _ _ _ _ hV => exact hV.elim
  | scan hserving havailable =>
    obtain ⟨done', hscanned, hnext⟩ := h.scanned.scan h.typed.clean_sent hfront
    have hunsent : l.server.endpoint.stream.unsent = [] := by
      rw [hserving] at hclear
      exact hclear
    rw [← l.server.scan_endpoint] at hunsent
    rw [hserving] at hnext
    refine hgoes (by rw [hserving]; simp) l.server.scan_endpoint hscanned ?_ ?_
    · rcases hnext with hnext | hnext <;> rw [hnext] <;> exact hunsent
    · rcases hnext with hnext | hnext <;> rw [hnext] <;> simp
  | spawn hserving result =>
    rw [hserving] at hclear
    refine hgoes (by rw [hserving]; simp) rfl (hscanned _ _ _) ?_ (by simp)
    match result with
    | .error e => exact absurd rfl (hran.ok e)
    | .ok () => exact ⟨hclear, rfl⟩
  | pipe stdoutOpen stderrOpen hserving pipe hopen result hroom =>
    rw [hserving] at hclear
    refine hgoes (by rw [hserving]; simp) rfl (hscanned _ _ _) ?_ (by simp)
    change CommandLine.Clear l.server.endpoint.stream.unsent _
    rw [hclear.1]
    exact CommandLine.clear_afterPipe hclear.2 pipe fun e he =>
      hran.ok e (congrArg Serving.runCommandLine he)
  | wait hserving result =>
    rw [hserving] at hclear
    refine hgoes (by rw [hserving]; simp) rfl (hscanned _ _ _) ?_ (by simp)
    change CommandLine.Clear l.server.endpoint.stream.unsent _
    rw [show l.server.endpoint.stream.unsent = [] from hclear]
    exact CommandLine.clear_afterWait fun e he => hran.ok e (congrArg Serving.runCommandLine he)
  | write buf next hserving answers =>
    exact absurd (by rw [ServerProgram.Sending, hserving]; trivial) hlocal
  | flush next hserving answers poll =>
    exact absurd (by rw [ServerProgram.Sending, hserving]; trivial) hlocal
  | done hserving =>
    rw [hserving] at hclear
    exact hgoes (by rw [hserving]; simp) rfl (hscanned _ _ _) hclear (by simp)
  | failed e hserving =>
    rw [hserving] at hclear
    exact hclear.elim

/-- Every step keeps what is said of the session. -/
theorem Keeps.step (hV : V.Correct C) (h : l.Keeps sent done) (hstep : Step V capacity l l') :
    ∃ sent' done', l'.Keeps sent' done' := by
  cases hstep with
  | stdinLine line hloop hline hshort => exact ⟨sent, done, h.stdinLine hloop hline hshort⟩
  | stdinEnd hloop => exact ⟨sent, done, h.stdinEnd hloop⟩
  | clientRead stdinOpen hloop clock hclock answers hmeets =>
    exact ⟨sent, done, h.clientRead hV hloop hclock hmeets⟩
  | clientWrite buf hloop answers htakes =>
    obtain ⟨sent', hnext⟩ := h.clientWrite hloop htakes
    exact ⟨sent', done, hnext⟩
  | clientShutdown exit hloop answers poll htakes =>
    exact ⟨sent, done, h.clientShutdown hloop htakes⟩
  | clientFlush stdinOpen exit hloop answers poll htakes =>
    exact ⟨sent, done, h.clientFlush hloop htakes⟩
  | serverRead hserving havailable clock hclock answers hmeets =>
    exact ⟨sent, done, h.serverRead hV hserving havailable hclock hmeets⟩
  | serverWrite buf next hserving answers htakes =>
    exact ⟨sent, done, h.serverWrite hserving htakes⟩
  | serverFlush next hserving answers poll htakes =>
    exact ⟨sent, done, h.serverFlush hserving htakes⟩
  | serverLocal server hlocal hstep hran =>
    obtain ⟨done', hnext⟩ := h.serverLocal hlocal hstep hran
    exact ⟨sent, done', hnext⟩

theorem Keeps.run (hV : V.Correct C) (h : l.Keeps sent done) (hrun : Run V capacity l l') :
    ∃ sent' done', l'.Keeps sent' done' := by
  induction hrun with
  | refl => exact ⟨sent, done, h⟩
  | tail _ hstep ih =>
    obtain ⟨sent', done', h'⟩ := ih
    exact h'.step hV hstep

end Steps

/-! ## Every run -/

/-- Every line was run, and everything there is to print of that was printed. -/
structure Answered (l : Link C) : Prop where
  commands : l.server.commands = l.client.lines.map stripCr
  printed : l.client.endpoint.delivered = l.server.transcript
  count : l.server.outputs.length = l.server.commands.length
  complete : ∀ o ∈ l.server.outputs, o.Complete

/-- Nothing is on its way, and both programs wait for something to read. -/
structure Rests (l : Link C) : Prop where
  toServer : l.toServer = []
  toClient : l.toClient = []
  select : ∃ stdinOpen, l.client.loop = .select stdinOpen
  nextLine : l.server.serving = .nextLine
  available : l.server.reader.available = []
  clientUnread : l.client.endpoint.stream.unread = []
  serverUnread : l.server.endpoint.stream.unread = []

section Runs

variable {l : Link C} {sent done : List Text}

/-- A loop that does not write has handed all its lines to the stream. -/
theorem Keeps.lines_eq (h : l.Keeps sent done) (hloop : ∀ buf, l.client.loop ≠ .writeAll buf) :
    l.client.lines = sent := by
  obtain ⟨rest, hlines, howes⟩ := h.typed.owes
  have hrest : rest = [] := by
    match hwaits : l.client.loop, howes with
    | .writeAll buf, _ => exact absurd hwaits (hloop buf)
    | .select _, howes | .shutdown _, howes | .flush _ _, howes | .returned, howes => exact howes
  rw [hlines, hrest, List.append_nil]

/-- Lines are run in the order in which they were typed. -/
theorem Keeps.commands_isPrefix (h : l.Keeps sent done) :
    l.server.commands <+: l.client.lines.map stripCr := by
  obtain ⟨rest, hlines, -⟩ := h.typed.owes
  have hfront := h.up.delivered_isPrefix
  have hdelivered : l.up.delivered = _ := h.scanned.delivered
  have haccepted : l.up.accepted = _ := h.typed.accepted
  rw [hdelivered, haccepted] at hfront
  have hbytes : done.map utf8 <+: sent.map utf8 := Lines.isPrefix_of_join_append
    (Shell.clean_utf8 h.scanned.clean) (Shell.clean_utf8 h.typed.clean_sent) hfront
  rw [List.prefix_iff_eq_take, List.length_map, ← List.map_take] at hbytes
  rw [h.scanned.commands, List.map_injective_iff.mpr utf8_injective hbytes, hlines, List.map_append]
  exact ((List.take_prefix _ _).map stripCr).trans (List.prefix_append _ _)

theorem Keeps.accepted_eq (h : l.Keeps sent done) :
    l.server.endpoint.accepted = l.server.transcript := h.serves.transcribed.accepted

theorem Keeps.printed_isPrefix (h : l.Keeps sent done) :
    l.client.endpoint.delivered <+: l.server.transcript :=
  h.accepted_eq ▸ h.down.delivered_isPrefix

theorem Keeps.answered_of_rests (h : l.Keeps sent done) (hrests : l.Rests) : l.Answered := by
  have hsettled := h.settled
  have hphase := h.serves.phase
  obtain ⟨stdinOpen, hloop⟩ := hrests.select
  rw [hloop] at hsettled
  rw [hrests.nextLine] at hphase
  obtain ⟨-, hcount, hunsent⟩ := hphase
  have hdelivered := h.up.delivered_eq hrests.toServer hsettled.1 hrests.serverUnread
  have hprinted := h.down.delivered_eq hrests.toClient hunsent hrests.clientUnread
  obtain ⟨hdone, -⟩ := h.scanned.done_eq h.typed.clean_sent (hdelivered.trans h.typed.accepted)
    hrests.available
  have hlines := h.lines_eq fun buf hwrites => by rw [hloop] at hwrites; cases hwrites
  exact ⟨by rw [h.scanned.commands, hdone, hlines], hprinted.trans h.accepted_eq, hcount.symm,
    h.serves.complete⟩

/-- The handler returns behind the last line. -/
theorem Keeps.commands_of_returned (h : l.Keeps sent done)
    (hserving : l.server.serving = .returned) :
    l.server.commands = l.client.lines.map stripCr := by
  obtain ⟨hended, hdone, -⟩ := h.finished hserving
  have hsettled := h.settled
  rw [hended] at hsettled
  have hlines := h.lines_eq fun buf hwrites => by
    rw [hwrites] at hsettled
    cases hsettled.2
  rw [h.scanned.commands, hdone, hlines]

/-- The client returns behind the server, with everything printed. -/
theorem Keeps.answered_of_returned (h : l.Keeps sent done) (hloop : l.client.loop = .returned) :
    l.server.serving = .returned ∧ l.Answered := by
  obtain ⟨hserving, hprinted⟩ := h.exits (by rw [hloop]; trivial)
  obtain ⟨-, -, -, hcount⟩ := h.finished hserving
  exact ⟨hserving, h.commands_of_returned hserving, hprinted.trans h.accepted_eq, hcount.symm,
    h.serves.complete⟩

end Runs

variable {V : Verifier} {capacity : ℕ} {clientKey serverKey : C.Ed25519KeyPair}
  {clientNow serverNow : Instant} {l : Link C}

/-- In every state of every session the lines that were run are the first ones that were typed,
and what was printed is the beginning of what there is to print of them. When nothing is on its
way and both programs wait, every line was run and everything was printed. The handler returns
only behind the last line, and the client only when everything was printed: no program ever
fails. -/
theorem session_answered (hV : V.Correct C)
    (hrun : Run V capacity (start clientKey serverKey clientNow serverNow) l) :
    l.server.commands <+: l.client.lines.map stripCr ∧
      l.client.endpoint.delivered <+: l.server.transcript ∧
      (l.Rests → l.Answered) ∧
      (l.server.serving = .returned → l.server.commands = l.client.lines.map stripCr) ∧
      (l.client.loop = .returned → l.server.serving = .returned ∧ l.Answered) := by
  obtain ⟨sent, done, h⟩ := (keeps_start clientKey serverKey clientNow serverNow).run hV hrun
  exact ⟨h.commands_isPrefix, h.printed_isPrefix, h.answered_of_rests, h.commands_of_returned,
    h.answered_of_returned⟩

/-- A session in which one line was typed, whose command runs. -/
theorem session_answered_sample : ∃ l : Link Crypto.sample,
    l.client.lines = [[]] ∧ l.server.commands <+: l.client.lines.map stripCr := by
  obtain ⟨l, hrun, -, -, hlines, -⟩ := exists_running
    (Verifier.correct_acceptAll Crypto.sample) (le_refl 138) (0 : UInt8) (0 : UInt8) 0 0
  exact ⟨l, hlines, (session_answered (Verifier.correct_acceptAll _) hrun).1⟩

end Link

end Axsh

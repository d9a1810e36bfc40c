/-
# Runs of a session

A connection takes what it has room for. So a line is typed, flushed and read, and its command
is started.
-/

import Axsh.Link

set_option autoImplicit false

namespace Axsh

open PayloadStream
open Hdlc (ReadResult)

variable {C : Crypto}

/-! ## Flushes into what room there is -/

section Flush

variable {self : PayloadStream C}

/-- A stream that takes `room` bytes and then no more. -/
def flushInto (room : ℕ) : List WriteResult :=
  if room = 0 then [.pending] else [.wrote room, .pending]

theorem faithful_flushInto (room : ℕ) : Pipe.Faithful (flushInto room) := by
  intro answer hmem
  unfold flushInto at hmem
  split_ifs at hmem with hroom
  · exact .inl (List.mem_singleton.mp hmem)
  · rcases List.mem_pair.mp hmem with rfl | rfl
    · exact .inr ⟨room, Nat.pos_of_ne_zero hroom, rfl⟩
    · exact .inl rfl

/-- What a drain does then. -/
theorem drain_flushInto (self : PayloadStream C) (room : ℕ) :
    (self.pollDrainWriteBuffer (flushInto room)).taken = self.unsent.take room ∧
      (room < self.unsent.length →
        (self.pollDrainWriteBuffer (flushInto room)).result = .pending ∧
          (self.pollDrainWriteBuffer (flushInto room)).stream.unsent = self.unsent.drop room) ∧
      (self.unsent.length ≤ room →
        (self.pollDrainWriteBuffer (flushInto room)).result = .ready (.ok ())) := by
  have hlength : self.unsent.length = self.writeBuffer.length - self.writeOffset :=
    List.length_drop
  by_cases hmore : self.writeOffset < self.writeBuffer.length
  · unfold flushInto
    split_ifs with hroom
    · rw [pollDrainWriteBuffer, if_pos hmore, hroom]
      refine ⟨rfl, fun _ => ⟨rfl, rfl⟩, fun hle => ?_⟩
      omega
    · have hoffered : (self.writeBuffer.drop self.writeOffset).length = self.unsent.length := rfl
      have hwritten : min room self.unsent.length ≠ 0 := by omega
      rw [pollDrainWriteBuffer, if_pos hmore]
      simp only [hoffered, if_neg hwritten]
      rw [pollDrainWriteBuffer]
      rcases Nat.lt_or_ge room self.unsent.length with hlt | hle
      · rw [Nat.min_eq_left hlt.le, if_pos (by simp only; omega)]
        refine ⟨List.append_nil _, fun _ => ⟨rfl, ?_⟩, fun hge => absurd hge (Nat.not_le.mpr hlt)⟩
        rw [unsent, unsent, List.drop_drop]
      · rw [Nat.min_eq_right hle, if_neg (by simp only; omega)]
        refine ⟨?_, fun hlt => absurd hlt (Nat.not_lt.mpr hle), fun _ => rfl⟩
        rw [List.append_nil, List.take_of_length_le hle]
        exact List.take_of_length_le le_rfl
  · have hnone : self.unsent = [] := List.drop_eq_nil_of_le (Nat.not_lt.mp hmore)
    have hdrain (answers : List WriteResult) :
        (self.pollDrainWriteBuffer answers).taken = [] ∧
          (self.pollDrainWriteBuffer answers).result = .ready (.ok ()) := by
      cases answers with
      | nil => rw [pollDrainWriteBuffer, if_neg hmore]; exact ⟨rfl, rfl⟩
      | cons answer rest => rw [pollDrainWriteBuffer, if_neg hmore]; exact ⟨rfl, rfl⟩
    obtain ⟨htaken, hresult⟩ := hdrain (flushInto room)
    rw [hnone]
    exact ⟨by rw [htaken, List.take_nil], fun hlt => absurd hlt (Nat.not_lt_zero _),
      fun _ => hresult⟩

/-- And what a flush does. -/
theorem flush_flushInto (self : PayloadStream C) (room : ℕ) :
    (self.send (.flush (flushInto room) (.ready (.ok ())))).taken = self.unsent.take room ∧
      (room < self.unsent.length →
        (self.pollFlushPayload (flushInto room) (.ready (.ok ()))).result = .pending ∧
          (self.send (.flush (flushInto room) (.ready (.ok ())))).stream.unsent =
            self.unsent.drop room) ∧
      (self.unsent.length ≤ room →
        (self.pollFlushPayload (flushInto room) (.ready (.ok ()))).result = .ready (.ok ())) := by
  obtain ⟨htaken, hlt, hle⟩ := drain_flushInto self room
  simp only [PayloadStream.send, pollFlushPayload, pollDrainThen]
  rcases Nat.lt_or_ge room self.unsent.length with hroom | hroom
  · obtain ⟨hresult, hunsent⟩ := hlt hroom
    rw [hresult]
    exact ⟨htaken, fun _ => ⟨rfl, hunsent⟩, fun hge => absurd hge (Nat.not_le.mpr hroom)⟩
  · rw [hle hroom]
    exact ⟨htaken, fun hlt => absurd hlt (Nat.not_lt.mpr hroom), fun _ => rfl⟩

end Flush

theorem noIdleGap_const (now : Instant) : NoIdleGap now fun _ => now :=
  ⟨(Nat.sub_self now).le.trans (Nat.zero_le _),
    fun _ => (Nat.sub_self now).le.trans (Nat.zero_le _)⟩

namespace Link

variable {V : Verifier} {capacity : ℕ} {l : Link C}

/-- The connection takes what it has room for. -/
theorem Takes.flushInto {fifo : Bytes} (stream : PayloadStream C) (hroom : fifo.length ≤ capacity) :
    Takes capacity fifo stream (.flush (flushInto (capacity - fifo.length)) (.ready (.ok ()))) where
  answers := ⟨faithful_flushInto _, by simp⟩
  room := by
    rw [(flush_flushInto stream _).1, List.length_append, List.length_take]
    omega

/-- With nothing unsent, a write hands nothing over, and the frame is unsent. -/
theorem send_write_of_unsent {stream : PayloadStream C} (hbounded : stream.Bounded)
    (hunsent : stream.unsent = []) {buf : Bytes} (hbuf : buf ≠ []) :
    (stream.send (.write buf [])).taken = [] ∧
      (stream.send (.write buf [])).stream.unsent = payloadFrame stream.packetSign buf := by
  have hresult := Shell.pollWritePayload_of_unsent hunsent hbuf
  have hsends := (send_spec hbounded (.write buf [])).1
  have hsigned : (stream.send (.write buf [])).signed = some buf := by
    simp [PayloadStream.send, hresult, signedByWrite, hbuf]
  rw [hsigned] at hsends
  exact ⟨(Queues.taken_eq hsends).trans hunsent, Queues.unsent hsends⟩

theorem Takes.write {fifo : Bytes} {stream : PayloadStream C} (hbounded : stream.Bounded)
    (hunsent : stream.unsent = []) {buf : Bytes} (hbuf : buf ≠ [])
    (hroom : fifo.length ≤ capacity) : Takes capacity fifo stream (.write buf []) where
  answers := List.forall_mem_nil _
  room := by
    rw [(send_write_of_unsent hbounded hunsent hbuf).1, List.append_nil]
    exact hroom

/-- A flush has handed over everything, or has filled the connection. -/
theorem flushInto_cases {stream : PayloadStream C} (hbounded : stream.Bounded) {fifo : Bytes}
    (hroom : fifo.length ≤ capacity) :
    let call : SendCall := .flush (flushInto (capacity - fifo.length)) (.ready (.ok ()))
    let result :=
      (stream.pollFlushPayload (flushInto (capacity - fifo.length)) (.ready (.ok ()))).result
    (result = .ready (.ok ()) ∧ (stream.send call).stream.unsent = [] ∧
        fifo ++ (stream.send call).taken = fifo ++ stream.unsent ∧
        (fifo ++ stream.unsent).length ≤ capacity) ∨
      result = .pending ∧ (stream.send call).stream.unsent ≠ [] ∧
        (fifo ++ (stream.send call).taken).length = capacity := by
  intro call result
  obtain ⟨htaken, hless, hall⟩ := flush_flushInto stream (capacity - fifo.length)
  rcases Nat.lt_or_ge (capacity - fifo.length) stream.unsent.length with hlt | hle
  · obtain ⟨hresult, hunsent⟩ := hless hlt
    refine .inr ⟨hresult, fun hnone => ?_, ?_⟩
    · rw [hunsent, List.drop_eq_nil_iff] at hnone
      omega
    · rw [htaken, List.length_append, List.length_take]
      omega
  · refine .inl ⟨hall hle, (pollDrainThen_spec hbounded.write _ _).2 (hall hle), ?_, ?_⟩
    · rw [htaken, List.take_of_length_le hle]
    · rw [List.length_append]
      omega

/-! ## The first command -/

/-- The client has an empty line in its stream. -/
def typed (l : Link C) : Link C :=
  clientSend { l with client := { l.client with lines := l.client.lines ++ [[]] } }
    (.write (lineBytes []) []) (.flush true false)

theorem run_typed (hloop : l.client.loop = .select true)
    (hbounded : l.client.endpoint.stream.Bounded)
    (hunsent : l.client.endpoint.stream.unsent = []) (hroom : l.toServer.length ≤ capacity) :
    Run V capacity l l.typed := by
  have hne : lineBytes [] ≠ [] := by decide
  have hafter : MainLoop.afterWrite (lineBytes [])
      (l.client.endpoint.stream.pollWritePayload (lineBytes []) []).result = .flush true false := by
    rw [Shell.pollWritePayload_of_unsent hunsent hne]
    rfl
  have htyped : Run V capacity l _ := .single (.stdinLine [] hloop (by decide) (by decide))
  have hwrite := htyped.tail (.clientWrite (lineBytes []) rfl []
    (Takes.write hbounded hunsent hne hroom))
  rw [show MainLoop.afterWrite _ _ = _ from hafter] at hwrite
  exact hwrite

theorem typed_facts (hbounded : l.client.endpoint.stream.Bounded)
    (hunsent : l.client.endpoint.stream.unsent = []) :
    l.typed.toServer = l.toServer ∧ l.typed.client.endpoint.stream.Bounded ∧
      l.typed.client.endpoint.stream.unsent =
        payloadFrame l.client.endpoint.stream.packetSign (lineBytes []) := by
  have hne : lineBytes [] ≠ [] := by decide
  obtain ⟨htaken, hframe⟩ := send_write_of_unsent hbounded hunsent hne
  refine ⟨?_, (Endpoint.sameKeys_afterSend hbounded (.write (lineBytes []) [])).bounded, hframe⟩
  change l.toServer ++ _ = _
  rw [htaken, List.append_nil]

/-- A server that has read a line starts its command. -/
theorem run_started {line : Text} (hserving : l.server.serving = .nextLine) (hline : '\n' ∉ line)
    (hreader : l.server.reader = ⟨lineBytes line, []⟩) (hstatus : l.server.output.status = none) :
    Run V capacity l { l with server := { l.server with
      reader := ⟨[], []⟩, serving := .runCommandLine (.select true true)
      commands := l.server.commands ++ [stripCr line] } } := by
  have hwaits : ¬ l.server.Sending := by rw [ServerProgram.Sending, hserving]; exact id
  have havailable : l.server.reader.available ≠ [] := by simp [hreader, lineBytes]
  have hdisplay (status : ExitStatus) (hsome : l.server.output.status = some status) :
      status.display.length ≤ 4096 := absurd (hstatus.symm.trans hsome) (by simp)
  have hscan := ServerProgram.scan_lineBytes hline hreader
  have hscanned : Run V capacity l _ := .single (.serverLocal l.server.scan hwaits
    (.scan hserving havailable) ⟨by rw [hscan]; simp, by rw [hscan]; exact hdisplay⟩)
  rw [hscan] at hscanned
  exact hscanned.tail (.serverLocal _ id (.spawn rfl (.ok ())) ⟨by simp, hdisplay⟩)

/-- The first line that the user types is run. -/
theorem exists_running (hV : V.Correct C) (hcapacity : 138 ≤ capacity)
    (clientKey serverKey : C.Ed25519KeyPair) (clientNow serverNow : Instant) :
    ∃ l, Run V capacity (start clientKey serverKey clientNow serverNow) l ∧
      (l.client.loop = .select true ∧ l.client.endpoint.stream.Bounded ∧
        l.client.endpoint.stream.unsent = [] ∧ l.toServer.length ≤ capacity) ∧
      (l.server.serving = .runCommandLine (.select true true) ∧ l.server.output.status = none ∧
        l.server.endpoint.stream.Bounded ∧ l.server.endpoint.stream.unsent = [] ∧
        l.toClient.length ≤ capacity) ∧
      l.client.lines = [[]] ∧ l.server.commands = [[]] := by
  let first := start (C := C) clientKey serverKey clientNow serverNow
  have hbounded : first.client.endpoint.stream.Bounded := bounded_new _ _
  have hserver : first.server.endpoint.stream.Bounded := bounded_new _ _
  have hrun : Run V capacity first first.typed :=
    run_typed rfl hbounded rfl (Nat.zero_le _)
  obtain ⟨hfifo, hbounded', hframe⟩ := typed_facts (l := first) hbounded rfl
  have hfifo : first.typed.toServer = [] := hfifo
  have hwithin : first.typed.toServer.length ≤ capacity := by rw [hfifo]; exact Nat.zero_le _
  have hflush := hrun.tail (.clientFlush true false rfl _ _
    (Takes.flushInto first.typed.client.endpoint.stream hwithin))
  have hlength : (payloadFrame first.client.endpoint.stream.packetSign (lineBytes [])).length ≤
      capacity := by
    refine (Hdlc.length_encode_le _).trans ?_
    rw [length_payloadWire]
    exact hcapacity
  -- The flush hands over the frame of the line.
  obtain ⟨htaken, -, hall⟩ := flush_flushInto first.typed.client.endpoint.stream
    (capacity - first.typed.toServer.length)
  have hroom : first.typed.client.endpoint.stream.unsent.length ≤
      capacity - first.typed.toServer.length := by
    rw [hframe, hfifo]
    exact hlength
  have hflushed := hall hroom
  rw [hflushed] at hflush
  let call : SendCall := .flush (flushInto (capacity - first.typed.toServer.length))
    (.ready (.ok ()))
  let second : Link C := first.typed.clientSend call (.select true)
  have hsecond : second.toServer =
      payloadFrame first.client.endpoint.stream.packetSign (lineBytes []) := by
    change first.typed.toServer ++ _ = _
    rw [htaken, List.take_of_length_le hroom, hframe, hfifo, List.nil_append]
  -- The server reads all of it.
  let reading : ReadCall := ⟨V, fun _ => serverNow, 8192,
    (payloadFrame first.client.endpoint.stream.packetSign (lineBytes [])).map .byte⟩
  have hread : (second.server.endpoint.stream.read reading).result =
      .ready (.ok (lineBytes [])) :=
    read_payloadFrame (vouches_of_correct hV _ _) (fits_of_length_le _ (by decide)) (by decide)
      hserver rfl rfl ⟨rfl, rfl⟩ (noIdleGap_const serverNow).first (by decide)
  have hmeets : Meets second.toServer (second.ended = true) reading.answers := by
    have hwhole : Meets second.toServer (second.ended = true)
        ((second.toServer.take second.toServer.length).map .byte) := .bytes _
    rw [List.take_length, hsecond] at hwhole
    rw [hsecond]
    exact hwhole
  have hthird := hflush.tail
    (.serverRead rfl rfl (fun _ => serverNow) (noIdleGap_const serverNow) reading.answers hmeets)
  have hline : second.server.read reading = { second.server with
      endpoint := second.server.endpoint.afterRead reading, reader := ⟨lineBytes [], []⟩ } := by
    simp only [ServerProgram.read, hread]
    rfl
  have hshort : (second.toServer.drop
      (reading.answers.length - (second.server.endpoint.stream.read reading).rest.length)).length ≤
      capacity := by
    rw [List.length_drop, hsecond]
    omega
  have hserver' := Endpoint.sameKeys_afterRead hserver reading
  have hunsent : (second.server.endpoint.afterRead reading).stream.unsent = [] :=
    Endpoint.unsent_afterRead hserver reading
  let third : Link C := second.serverRead reading
  have hthird' : third.server = { second.server with
      endpoint := second.server.endpoint.afterRead reading, reader := ⟨lineBytes [], []⟩ } := hline
  have hclean : '\n' ∉ ([] : Text) := List.not_mem_nil
  have hstarted : Run V capacity third _ := run_started (by rw [hthird']; rfl) hclean
    (by rw [hthird']) (by rw [hthird']; rfl)
  refine ⟨_, hthird.trans hstarted, ⟨rfl, ?_, ?_, hshort⟩, ⟨rfl, ?_, ?_, ?_, Nat.zero_le _⟩, rfl,
    ?_⟩
  · exact (Endpoint.sameKeys_afterSend hbounded' call).bounded
  · exact (pollDrainThen_spec hbounded'.write _ _).2 hflushed
  · rw [hthird']
    rfl
  · rw [hthird']
    exact hserver'.bounded
  · rw [hthird']
    exact hunsent
  · rw [hthird']
    rfl

end Link

end Axsh

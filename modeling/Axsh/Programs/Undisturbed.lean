/-
# Programs that nobody disturbs

The client sends a line, the server runs it and writes what it reads of the command, and the
client reads that. Each of these is a run of one program, with the state that it ends in.
-/

import Axsh.Commands.Order
import Axsh.Programs

set_option autoImplicit false

namespace Axsh

open PayloadStream

variable {C : Crypto} {ok : Verifier → Prop}

/-- Verdicts are not needed where nothing is read. -/
abbrev Unread : Verifier → Prop := fun _ => False

namespace Endpoint

variable {e : Endpoint C}

/-- With nothing left to write, a write signs its buffer at once. -/
theorem signed_write (hunsent : e.stream.unsent = []) {data : Bytes} (hdata : data ≠ []) :
    (e.afterSend (.write data [])).signed =
      e.signed ++ [packetSignatureInput e.stream.packetSign.signCounter data] := by
  have hresult := Shell.pollWritePayload_of_unsent hunsent hdata
  simp only [afterSend, send, hresult, signedByWrite]
  simp [hdata]

end Endpoint

namespace ClientProgram

variable {c : ClientProgram C}

/-- The client sends a line. -/
theorem run_line (hloop : c.loop = .select true) (hunsent : c.endpoint.stream.unsent = [])
    (line : Text) (hline : '\n' ∉ line) :
    Relation.ReflTransGen (Step ok) c
      { endpoint := c.endpoint.afterSend (.write (lineBytes line) [])
        loop := .flush true false, lines := c.lines ++ [line] } := by
  have hne : lineBytes line ≠ [] := by simp [lineBytes]
  have hafter : MainLoop.afterWrite (lineBytes line)
      (c.endpoint.stream.pollWritePayload (lineBytes line) []).result = .flush true false := by
    rw [Shell.pollWritePayload_of_unsent hunsent hne]
    simp [MainLoop.afterWrite, hne]
  have hwrite : Step ok
      { c with loop := .writeAll (lineBytes line), lines := c.lines ++ [line] } _ :=
    .write (lineBytes line) rfl []
  rw [hafter] at hwrite
  exact .tail (.single (.stdinLine line hloop hline)) hwrite

/-- The flush that lets the stream take everything. -/
def flushWhole (stream : PayloadStream C) : SendCall :=
  .flush [.wrote stream.writeBuffer.length] (.ready (.ok ()))

/-- The client flushes its stream, and waits again. -/
theorem step_flush (hloop : c.loop = .flush true false) :
    Step ok c { c with
      endpoint := c.endpoint.afterSend (flushWhole c.endpoint.stream), loop := .select true } := by
  have hflush : Step ok c _ := .flush true false hloop
    [.wrote c.endpoint.stream.writeBuffer.length] (.ready (.ok ()))
  rw [Shell.pollFlushPayload_whole] at hflush
  exact hflush

/-- The client reads some bytes. -/
theorem step_read (hloop : c.loop = .select true) {call : ReadCall} (hroom : call.remaining = 1024)
    (hV : ok call.V) {data : Bytes} (hdata : data ≠ [])
    (hread : (c.endpoint.stream.read call).result = .ready (.ok data)) :
    Step ok c { c with endpoint := c.endpoint.afterRead call } := by
  have hstep : Step ok c _ := .read true hloop call hroom hV
  have hafter : MainLoop.afterRead true (c.endpoint.stream.read call).result = c.loop := by
    rw [hread, hloop]
    simp [MainLoop.afterRead, hdata]
  rw [hafter] at hstep
  exact hstep

end ClientProgram

namespace ServerProgram

variable {s : ServerProgram C}

/-- The server reads a line. -/
theorem step_read (hserving : s.serving = .nextLine) (hreader : s.reader = ⟨[], []⟩)
    {call : ReadCall} (hroom : call.remaining = 8192) (hV : ok call.V) {line : Text}
    (hread : (s.endpoint.stream.read call).result = .ready (.ok (lineBytes line))) :
    Step ok s { s with
      endpoint := s.endpoint.afterRead call, reader := ⟨lineBytes line, []⟩ } := by
  have hstep : Step ok s _ := .read hserving (by rw [hreader]) call hroom hV
  have hne : (lineBytes line).isEmpty = false := by simp [lineBytes]
  have hafter : s.read call = { s with
      endpoint := s.endpoint.afterRead call, reader := ⟨lineBytes line, []⟩ } := by
    rw [ServerProgram.read, hread]
    simp only [hne, hreader]
    rfl
  rw [hafter] at hstep
  exact hstep

/-- The line reader scans a whole line. -/
theorem scan_lineBytes {line : Text} (hline : '\n' ∉ line)
    (hreader : s.reader = ⟨lineBytes line, []⟩) :
    s.scan = { s with
      reader := ⟨[], []⟩, serving := .runCommandLine .spawn
      commands := s.commands ++ [stripCr line] } := by
  obtain ⟨htake, hdrop⟩ := Lines.takeWhile_dropWhile_append (newline_mem_utf8.not.mpr hline) []
  have hmem : 0x0a ∈ lineBytes line := by simp [lineBytes]
  have htake' : (lineBytes line).takeWhile (· ≠ 0x0a) = utf8 line := htake
  have hdrop' : ((lineBytes line).dropWhile (· ≠ 0x0a)).tail = [] := hdrop
  simp only [scan, hreader, hmem, if_true, htake', hdrop', List.nil_append]
  rw [finish, ← lineBytes, Shell.finishLine_lineBytes]

/-- The server runs the line, and writes the first bytes that the command prints. -/
theorem run_command (hserving : s.serving = .nextLine) (line : Text) (hline : '\n' ∉ line)
    (hreader : s.reader = ⟨lineBytes line, []⟩) (hunsent : s.endpoint.stream.unsent = [])
    (data : Bytes) (hdata : data ≠ []) (hlen : data.length ≤ 4096) :
    Relation.ReflTransGen (Step ok) s
      { endpoint := s.endpoint.afterSend (.write data []), reader := ⟨[], []⟩
        serving := .runCommandLine (.flush (.select true true))
        commands := s.commands ++ [stripCr line], outputs := s.outputs
        output := (s.output.afterPipe .stdout (.ready (.ok data))).afterSend (some data) } := by
  have hscan : Step ok s _ := .scan hserving (by rw [hreader]; simp [lineBytes])
  rw [scan_lineBytes hline hreader] at hscan
  have hafter : CommandLine.afterPipe true true .stdout (.ready (.ok data)) =
      .writeAll data (.flush (.select true true)) := by
    simp [CommandLine.afterPipe, hdata, CommandLine.send, CommandLine.loop]
  have hpipe : Step ok
      { s with
        reader := ⟨[], []⟩, serving := .runCommandLine (.select true true)
        commands := s.commands ++ [stripCr line] } _ :=
    .pipe true true rfl .stdout rfl (.ready (.ok data)) fun read hread => by
      obtain rfl := Except.ok.inj (Poll.ready.inj hread)
      exact hlen
  rw [hafter] at hpipe
  have hresult := Shell.pollWritePayload_of_unsent hunsent hdata
  have hwrite : Step ok
      { s with
        reader := ⟨[], []⟩, serving := .runCommandLine (.writeAll data (.flush (.select true true)))
        commands := s.commands ++ [stripCr line]
        output := s.output.afterPipe .stdout (.ready (.ok data)) } _ :=
    .write data (.flush (.select true true)) rfl []
  have hlast : ServerProgram.write
      { s with
        reader := ⟨[], []⟩, serving := .runCommandLine (.writeAll data (.flush (.select true true)))
        commands := s.commands ++ [stripCr line]
        output := s.output.afterPipe .stdout (.ready (.ok data)) }
      data (.flush (.select true true)) [] =
      { endpoint := s.endpoint.afterSend (.write data []), reader := ⟨[], []⟩
        serving := .runCommandLine (.flush (.select true true))
        commands := s.commands ++ [stripCr line], outputs := s.outputs
        output := (s.output.afterPipe .stdout (.ready (.ok data))).afterSend (some data) } := by
    simp [ServerProgram.write, hresult, CommandLine.afterWrite, signedByWrite, hdata]
  rw [hlast] at hwrite
  exact .tail (.tail (.tail (.single hscan) (.spawn rfl (.ok ()))) hpipe) hwrite

/-- The underlying stream takes everything in a flush. -/
theorem unsent_flushWhole {e : Endpoint C} (h : e.stream.Bounded) :
    (e.afterSend (ClientProgram.flushWhole e.stream)).stream.unsent = [] :=
  (pollDrainThen_spec h.write _ _).2 (Shell.pollFlushPayload_whole e.stream)

/-- The server flushes what it wrote, and goes on. -/
theorem step_flush {next : CommandLine} (hserving : s.serving = .runCommandLine (.flush next)) :
    Step ok s { s with
      endpoint := s.endpoint.afterSend (ClientProgram.flushWhole s.endpoint.stream)
      serving := .runCommandLine next } := by
  have hflush : Step ok s _ := .flush next hserving
    [.wrote s.endpoint.stream.writeBuffer.length] (.ready (.ok ()))
  rw [Shell.pollFlushPayload_whole] at hflush
  exact hflush

/-- The output of a command once it has ended. -/
def ended (o : Output) (status : ExitStatus) : Output :=
  (((o.afterPipe .stdout (.ready (.ok []))).afterPipe .stderr (.ready (.ok []))).afterWait
    (.ready (.ok status))).afterSend (some (statusLine status))

/-- A command ends, and the server waits for the next one. -/
theorem Run.exit {before : ServerProgram C} (hrun : Run ok before s)
    (hserving : s.serving = .runCommandLine (.select true true))
    (hunsent : s.endpoint.stream.unsent = []) (status : ExitStatus) :
    ∃ e : Endpoint C, Run ok before
      { s with
        endpoint := e, serving := .nextLine, outputs := s.outputs ++ [ended s.output status]
        output := .empty } := by
  let line := statusLine status
  let read := (s.output.afterPipe .stdout (.ready (.ok []))).afterPipe .stderr (.ready (.ok []))
  let waited := read.afterWait (.ready (.ok status))
  have hnone : ∀ data : Bytes, Poll.ready (Except.ok (ε := Failure) []) = .ready (.ok data) →
      data.length ≤ 4096 := by
    intro data hdata
    obtain rfl := Except.ok.inj (Poll.ready.inj hdata)
    exact Nat.zero_le _
  -- Both pipes end, and then the exit status is known.
  have hstdout : Step ok s _ := .pipe true true hserving .stdout rfl (.ready (.ok [])) hnone
  have hstderr : Step ok
      { s with
        serving := .runCommandLine (.select false true)
        output := s.output.afterPipe .stdout (.ready (.ok [])) }
      { s with serving := .runCommandLine .wait, output := read } :=
    .pipe false true rfl .stderr rfl (.ready (.ok [])) hnone
  have hwait : Step ok { s with serving := .runCommandLine .wait, output := read }
      { s with
        serving := .runCommandLine (.writeAll line (.flush (.returned (.ok ()))))
        output := waited } := .wait rfl (.ready (.ok status))
  -- The status line is written and flushed.
  have hwrite : Step ok
      { s with
        serving := .runCommandLine (.writeAll line (.flush (.returned (.ok ()))))
        output := waited }
      { s with
        endpoint := s.endpoint.afterSend (.write line [])
        serving := .runCommandLine (.flush (.returned (.ok ())))
        output := waited.afterSend (some line) } := by
    have hline : line ≠ [] := statusLine_ne_nil status
    have hresult := Shell.pollWritePayload_of_unsent hunsent hline
    have hstep : Step ok
        { s with
          serving := .runCommandLine (.writeAll line (.flush (.returned (.ok ()))))
          output := waited } _ := .write line (.flush (.returned (.ok ()))) rfl []
    simp only [ServerProgram.write, hresult] at hstep
    simpa [CommandLine.afterWrite, signedByWrite, hline] using hstep
  exact ⟨_, .tail (.tail (.tail (.tail (.tail (hrun.tail hstdout) hstderr) hwait) hwrite)
    (step_flush rfl)) (.done rfl)⟩

end ServerProgram

end Axsh

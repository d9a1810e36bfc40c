/-
# Running a command

`run_command_line` starts a shell, copies what it reads of the two pipes to the client as it
comes, and ends with a line that tells the exit status. It is suspended in a `CommandLine`.
The reads of the pipes are logged in an `Output`. Whatever the pipes and the client's stream
answer, the packets it has signed with those it has still to write are what the reads returned,
one packet for a read and in their order, and the status line behind them when there is one
(`Output.Writes`).
-/

import Axsh.Text
import Axsh.Transport.Writing

set_option autoImplicit false

namespace Axsh

open PayloadStream

/-- The `ExitStatus` of a process: its code, unless a signal ended it, and its `Display`. -/
structure ExitStatus where
  code : Option Int32
  display : Text

/-- `exit_status`. -/
def ExitStatus.text (status : ExitStatus) : Text :=
  match status.code with
  | some code => (toString code).toList
  | none => "unknown (".toList ++ status.display ++ ")".toList

/-- The last line that is written for a command. -/
def statusLine (status : ExitStatus) : Bytes :=
  utf8 (">>> Exit status ".toList ++ status.text ++ "\n".toList)

theorem statusLine_ne_nil (status : ExitStatus) : statusLine status ≠ [] := by
  rw [statusLine, utf8_append]
  exact List.append_ne_nil_of_right_ne_nil _ (by decide)

/-! ## The function -/

/-- A pipe of the child. -/
inductive PipeEnd
  | stdout
  | stderr
  deriving DecidableEq

/-- What `run_command_line` waits for. -/
inductive CommandLine
  /-- `spawn`, which is not awaited. -/
  | spawn
  /-- `select!` between reads of the pipes that are open. -/
  | select (stdoutOpen stderrOpen : Bool)
  | wait
  /-- `write_all` of what is left of a buffer, and then `next`. -/
  | writeAll (buf : Bytes) (next : CommandLine)
  /-- `flush`, and then `next`. -/
  | flush (next : CommandLine)
  | returned (result : Res Unit)

namespace CommandLine

/-- `write.write_all(buf).await?; write.flush().await?`, and then `next`. -/
def send (buf : Bytes) (next : CommandLine) : CommandLine := .writeAll buf (.flush next)

/-- The head of the `while` loop. -/
def loop (stdoutOpen stderrOpen : Bool) : CommandLine :=
  if stdoutOpen || stderrOpen then .select stdoutOpen stderrOpen else .wait

/-- The pipe is open. -/
def IsOpen (stdoutOpen stderrOpen : Bool) : PipeEnd → Bool
  | .stdout => stdoutOpen
  | .stderr => stderrOpen

/-- The function after `spawn`. -/
def afterSpawn : Res Unit → CommandLine
  | .error e => .returned (.error e)
  | .ok () => loop true true

/-- The function after a poll of a read of a pipe in `select!`. -/
def afterPipe (stdoutOpen stderrOpen : Bool) (pipe : PipeEnd) : Poll (Res Bytes) → CommandLine
  | .pending => .select stdoutOpen stderrOpen
  | .ready (.error e) => .returned (.error e)
  | .ready (.ok data) =>
    if data.isEmpty then
      match pipe with
      | .stdout => loop false stderrOpen
      | .stderr => loop stdoutOpen false
    else send data (loop stdoutOpen stderrOpen)

/-- The function after a poll of `wait`. -/
def afterWait : Poll (Res ExitStatus) → CommandLine
  | .pending => .wait
  | .ready (.error e) => .returned (.error e)
  | .ready (.ok status) => send (statusLine status) (.returned (.ok ()))

/-- The function after a poll of `write_all`. -/
def afterWrite (buf : Bytes) (next : CommandLine) : Poll (Res ℕ) → CommandLine
  | .pending => .writeAll buf next
  | .ready (.error e) => .returned (.error e)
  | .ready (.ok n) =>
    if n = 0 then .returned (.error (.error .writeZero "write zero"))
    else if buf.drop n = [] then next
    else .writeAll (buf.drop n) next

/-- The function after a poll of `flush`. -/
def afterFlush (next : CommandLine) : Poll (Res Unit) → CommandLine
  | .pending => .flush next
  | .ready (.error e) => .returned (.error e)
  | .ready (.ok ()) => next

/-- A `write_all` is followed by a `flush`. -/
def Paired : CommandLine → Prop
  | .writeAll _ (.flush next) => next.Paired
  | .writeAll _ _ => False
  | .flush next => next.Paired
  | .spawn | .select _ _ | .wait | .returned _ => True

/-- Nothing is left in the stream while the function waits for anything but the stream. -/
def Drained (unsent : Bytes) : CommandLine → Prop
  | .writeAll _ _ | .flush _ | .returned (.error _) => True
  | .spawn | .select _ _ | .wait | .returned (.ok ()) => unsent = []

end CommandLine

/-! ## What is written of a command -/

/-- What became of a command: what each read of its pipes returned, its exit status, and the
packets that were signed for it. -/
structure Output where
  reads : List (PipeEnd × Bytes)
  status : Option ExitStatus
  packets : List Bytes

namespace Output

/-- Nothing was read or written. -/
def empty : Output := ⟨[], none, []⟩

/-- What the client's stream has accepted. -/
def written (o : Output) : Bytes := o.packets.flatten

/-- The status line, once the status is known. -/
def lastLine (o : Output) : List Bytes := (o.status.map statusLine).toList

/-- The output after a poll of a read of a pipe. -/
def afterPipe (o : Output) (pipe : PipeEnd) : Poll (Res Bytes) → Output
  | .pending | .ready (.error _) => o
  | .ready (.ok data) => { o with reads := o.reads ++ [(pipe, data)] }

/-- The output after a poll of `wait`. -/
def afterWait (o : Output) : Poll (Res ExitStatus) → Output
  | .pending | .ready (.error _) => o
  | .ready (.ok status) => { o with status := some status }

/-- The output after a payload was signed, if one was. -/
def afterSend (o : Output) (signed : Option Bytes) : Output :=
  { o with packets := o.packets ++ signed.toList }

/-- What the reads of one pipe returned. -/
def readsOf (o : Output) (pipe : PipeEnd) : List Bytes :=
  (o.reads.filter fun read => read.1 = pipe).map Prod.snd

/-- How far a pipe was read: it has not ended, or its last read met its end. -/
def At (o : Output) (pipe : PipeEnd) : Bool → Prop
  | true => [] ∉ o.readsOf pipe
  | false => ∃ before, o.readsOf pipe = before ++ [[]] ∧ [] ∉ before

/-- The packets there are to write: what each read returned that met no end, in the order of the
reads, and the status line. -/
def due (o : Output) : List Bytes :=
  (o.reads.map Prod.snd).filter (· ≠ []) ++ o.lastLine

/-- What was written and what is still to write is what is due. -/
def Writes (o : Output) (owed : List Bytes) : Prop := o.packets ++ owed = o.due

/-- No read returned more than the buffer has room for. -/
def Short (o : Output) : Prop := ∀ read ∈ o.reads, read.2.length ≤ 4096

/-- Both pipes were read to their ends, the status is known, and everything is written. -/
structure Complete (o : Output) : Prop where
  stdout : o.At .stdout false
  stderr : o.At .stderr false
  status : o.status.isSome
  packets : o.packets = o.due
  short : o.Short

/-- Something may still be written. -/
structure Begun (o : Output) : Prop where
  packets : o.packets <+: o.due
  short : o.Short

theorem writes_empty : empty.Writes [] := rfl

theorem Writes.isPrefix {o : Output} {owed : List Bytes} (h : o.Writes owed) :
    o.packets <+: o.due := ⟨owed, h⟩

end Output

namespace CommandLine

/-- What is said of the output while the function is suspended with `owed` to be written before
it goes on. -/
def Tracks (o : Output) (owed : List Bytes) : CommandLine → Prop
  | .spawn => o.Writes owed ∧ o.status = none ∧ o.At .stdout true ∧ o.At .stderr true
  | .select stdoutOpen stderrOpen =>
    o.Writes owed ∧ o.status = none ∧ o.At .stdout stdoutOpen ∧ o.At .stderr stderrOpen
  | .wait => o.Writes owed ∧ o.status = none ∧ o.At .stdout false ∧ o.At .stderr false
  | .writeAll buf next => buf ≠ [] ∧ next.Tracks o (owed ++ [buf])
  | .flush next => next.Tracks o owed
  | .returned (.ok ()) =>
    o.Writes owed ∧ o.status.isSome ∧ o.At .stdout false ∧ o.At .stderr false
  | .returned (.error _) => ∃ more, o.Writes (owed ++ more)

end CommandLine

/-! ## Every step of the function -/

namespace CommandLine

theorem paired_loop (stdoutOpen stderrOpen : Bool) : (loop stdoutOpen stderrOpen).Paired := by
  unfold loop
  split_ifs <;> trivial

theorem drained_loop {unsent : Bytes} (h : unsent = []) (stdoutOpen stderrOpen : Bool) :
    (loop stdoutOpen stderrOpen).Drained unsent := by
  unfold loop
  split_ifs <;> exact h

theorem drained_nil (phase : CommandLine) : phase.Drained [] := by
  unfold Drained
  split <;> trivial

theorem paired_afterPipe (stdoutOpen stderrOpen : Bool) (pipe : PipeEnd)
    (result : Poll (Res Bytes)) : (afterPipe stdoutOpen stderrOpen pipe result).Paired := by
  unfold afterPipe
  split
  · trivial
  · trivial
  · split_ifs
    · cases pipe <;> exact paired_loop _ _
    · exact paired_loop _ _

theorem drained_afterPipe {unsent : Bytes} (h : unsent = []) (stdoutOpen stderrOpen : Bool)
    (pipe : PipeEnd) (result : Poll (Res Bytes)) :
    (afterPipe stdoutOpen stderrOpen pipe result).Drained unsent := by
  unfold afterPipe
  split
  · exact h
  · trivial
  · split_ifs
    · cases pipe <;> exact drained_loop h _ _
    · trivial

theorem Paired.afterWrite {buf : Bytes} {next : CommandLine} (h : (writeAll buf next).Paired)
    (result : Poll (Res ℕ)) : (afterWrite buf next result).Paired := by
  match next, h with
  | .flush next, h =>
    unfold CommandLine.afterWrite
    split
    · exact h
    · trivial
    · split_ifs
      · trivial
      · exact h
      · exact h

theorem Paired.drained_afterWrite {buf : Bytes} {next : CommandLine}
    (h : (writeAll buf next).Paired) (result : Poll (Res ℕ)) (unsent : Bytes) :
    (CommandLine.afterWrite buf next result).Drained unsent := by
  match next, h with
  | .flush next, h =>
    unfold CommandLine.afterWrite
    split
    · trivial
    · trivial
    · split_ifs <;> trivial

end CommandLine

/-- The function is suspended, and the output is as far as it should be. -/
structure Running (phase : CommandLine) (o : Output) : Prop where
  tracks : phase.Tracks o []
  short : o.Short

namespace Output

variable {o : Output} {owed : List Bytes}

/-- A read that returns something adds a packet to those that are due. -/
theorem Writes.read (h : o.Writes owed) (hstatus : o.status = none) (pipe : PipeEnd)
    {data : Bytes} (hdata : data ≠ []) :
    (o.afterPipe pipe (.ready (.ok data))).Writes (owed ++ [data]) := by
  have hnext : (o.afterPipe pipe (.ready (.ok data))).due = o.due ++ [data] := by
    simp [due, lastLine, afterPipe, hstatus, hdata]
  rw [Writes, hnext, ← h, List.append_assoc]
  rfl

/-- One that meets an end adds nothing. -/
theorem Writes.readEnd (h : o.Writes owed) (pipe : PipeEnd) :
    (o.afterPipe pipe (.ready (.ok []))).Writes owed := by
  have hnext : (o.afterPipe pipe (.ready (.ok []))).due = o.due := by
    simp [due, lastLine, afterPipe]
  rw [Writes, hnext, ← h]
  rfl

/-- The exit status adds the status line. -/
theorem Writes.wait (h : o.Writes owed) (hstatus : o.status = none) (status : ExitStatus) :
    (o.afterWait (.ready (.ok status))).Writes (owed ++ [statusLine status]) := by
  have hnext : (o.afterWait (.ready (.ok status))).due = o.due ++ [statusLine status] := by
    simp [due, lastLine, afterWait, hstatus]
  rw [Writes, hnext, ← h, List.append_assoc]
  rfl

/-- What is signed is no longer owed. -/
theorem Writes.send {data : Bytes} (h : o.Writes (data :: owed)) :
    (o.afterSend (some data)).Writes owed := by
  change (o.packets ++ [data]) ++ owed = o.due
  rw [← h, List.append_assoc]
  rfl

theorem readsOf_afterPipe (o : Output) (pipe other : PipeEnd) (data : Bytes) :
    (o.afterPipe pipe (.ready (.ok data))).readsOf other =
      o.readsOf other ++ if pipe = other then [data] else [] := by
  by_cases hpipe : pipe = other <;> simp [readsOf, afterPipe, hpipe]

/-- A read of one pipe leaves the other one as it was. -/
theorem At.other {pipe other : PipeEnd} {isOpen : Bool} (h : o.At other isOpen)
    (hpipe : pipe ≠ other) (data : Bytes) :
    (o.afterPipe pipe (.ready (.ok data))).At other isOpen := by
  have hreads := readsOf_afterPipe o pipe other data
  rw [if_neg hpipe, List.append_nil] at hreads
  cases isOpen <;> simpa only [At, hreads] using h

/-- A pipe that returns something has not ended. -/
theorem At.read {pipe : PipeEnd} (h : o.At pipe true) {data : Bytes} (hdata : data ≠ []) :
    (o.afterPipe pipe (.ready (.ok data))).At pipe true := by
  have hreads := readsOf_afterPipe o pipe pipe data
  rw [if_pos rfl] at hreads
  rw [At, hreads, List.mem_append, List.mem_singleton]
  rintro (hmem | hnil)
  · exact h hmem
  · exact hdata hnil.symm

/-- One that returns nothing has. -/
theorem At.readEnd {pipe : PipeEnd} (h : o.At pipe true) :
    (o.afterPipe pipe (.ready (.ok []))).At pipe false := by
  refine ⟨o.readsOf pipe, ?_, h⟩
  rw [readsOf_afterPipe, if_pos rfl]

theorem Short.read (h : o.Short) (pipe : PipeEnd) {result : Poll (Res Bytes)}
    (hroom : ∀ data, result = .ready (.ok data) → data.length ≤ 4096) :
    (o.afterPipe pipe result).Short := by
  cases result using Poll.resultCases with
  | pending | error e => exact h
  | ok data =>
    intro read hread
    rcases List.mem_append.mp hread with hread | hread
    · exact h read hread
    · obtain rfl := List.mem_singleton.mp hread
      exact hroom data rfl

end Output

namespace CommandLine

variable {o : Output} {owed : List Bytes}

/-- However the function is suspended, it has written a beginning of what there is to write. -/
theorem Tracks.writes {phase : CommandLine} (h : phase.Tracks o owed) :
    ∃ more, o.Writes (owed ++ more) := by
  induction phase generalizing owed with
  | spawn | select | wait => exact ⟨[], (List.append_nil owed).symm ▸ h.1⟩
  | writeAll buf next ih =>
    obtain ⟨more, hmore⟩ := ih h.2
    exact ⟨[buf] ++ more, List.append_assoc owed [buf] more ▸ hmore⟩
  | flush next ih => exact ih h
  | returned result =>
    match result with
    | .ok () => exact ⟨[], (List.append_nil owed).symm ▸ h.1⟩
    | .error e => exact h

theorem tracks_loop (hwrites : o.Writes owed) (hstatus : o.status = none)
    {stdoutOpen stderrOpen : Bool} (hstdout : o.At .stdout stdoutOpen)
    (hstderr : o.At .stderr stderrOpen) : (loop stdoutOpen stderrOpen).Tracks o owed := by
  unfold loop
  split_ifs with hopen
  · exact ⟨hwrites, hstatus, hstdout, hstderr⟩
  · obtain ⟨rfl, rfl⟩ : stdoutOpen = false ∧ stderrOpen = false := by simpa using hopen
    exact ⟨hwrites, hstatus, hstdout, hstderr⟩

/-- What is owed first is signed, and the rest is owed still. -/
theorem Tracks.sent {phase : CommandLine} {data : Bytes} (h : phase.Tracks o (data :: owed)) :
    phase.Tracks (o.afterSend (some data)) owed := by
  induction phase generalizing owed with
  | spawn | select | wait => exact ⟨h.1.send, h.2⟩
  | writeAll buf next ih => exact ⟨h.1, ih h.2⟩
  | flush next ih => exact ih h
  | returned result =>
    match result with
    | .ok () => exact ⟨h.1.send, h.2⟩
    | .error e =>
      obtain ⟨more, hmore⟩ := h
      exact ⟨more, hmore.send⟩

end CommandLine

namespace Running

variable {o : Output} {phase : CommandLine}

/-- A command that is started has no output yet. -/
theorem start : Running .spawn .empty where
  tracks := ⟨Output.writes_empty, rfl, List.not_mem_nil, List.not_mem_nil⟩
  short := fun _ hread => absurd hread List.not_mem_nil

theorem begun (h : Running phase o) : o.Begun := by
  obtain ⟨more, hmore⟩ := h.tracks.writes
  exact ⟨hmore.isPrefix, h.short⟩

/-- A function that returns `Ok` has written everything. -/
theorem complete (h : Running (.returned (.ok ())) o) : o.Complete := by
  obtain ⟨hwrites, hstatus, hstdout, hstderr⟩ := h.tracks
  exact ⟨hstdout, hstderr, hstatus, (List.append_nil _).symm.trans hwrites, h.short⟩

/-- What is to be written is not empty, and it is due. -/
theorem mem_due {buf : Bytes} {next : CommandLine} (h : Running (.writeAll buf next) o) :
    buf ≠ [] ∧ buf ∈ o.due := by
  refine ⟨h.tracks.1, ?_⟩
  obtain ⟨more, hmore⟩ := h.tracks.2.writes
  rw [← hmore]
  simp

/-- The function may fail wherever it is. -/
theorem fail (h : Running phase o) (e : Failure) : Running (.returned (.error e)) o :=
  ⟨h.tracks.writes, h.short⟩

theorem afterSpawn (h : Running .spawn o) (result : Res Unit) :
    Running (.afterSpawn result) o := by
  match result with
  | .error e => exact h.fail e
  | .ok () => exact ⟨h.tracks, h.short⟩

/-- What is read of a pipe is written next. -/
theorem afterPipe {stdoutOpen stderrOpen : Bool} (h : Running (.select stdoutOpen stderrOpen) o)
    {pipe : PipeEnd} (hopen : CommandLine.IsOpen stdoutOpen stderrOpen pipe)
    {result : Poll (Res Bytes)} (hroom : ∀ data, result = .ready (.ok data) → data.length ≤ 4096) :
    Running (.afterPipe stdoutOpen stderrOpen pipe result) (o.afterPipe pipe result) := by
  have hshort := h.short.read pipe hroom
  obtain ⟨hwrites, hstatus, hstdout, hstderr⟩ := h.tracks
  cases result using Poll.resultCases with
  | pending => exact h
  | error e => exact h.fail e
  | ok data =>
    by_cases hdata : data = []
    · -- The pipe has ended, and the other one is as it was.
      subst hdata
      have hread := hwrites.readEnd pipe
      cases pipe with
      | stdout =>
        obtain rfl : stdoutOpen = true := hopen
        have hother := hstderr.other (show PipeEnd.stdout ≠ .stderr by decide) []
        exact ⟨CommandLine.tracks_loop hread hstatus hstdout.readEnd hother, hshort⟩
      | stderr =>
        obtain rfl : stderrOpen = true := hopen
        have hother := hstdout.other (show PipeEnd.stderr ≠ .stdout by decide) []
        exact ⟨CommandLine.tracks_loop hread hstatus hother hstderr.readEnd, hshort⟩
    · have hphase : CommandLine.afterPipe stdoutOpen stderrOpen pipe (.ready (.ok data)) =
          .send data (.loop stdoutOpen stderrOpen) := by
        simp [CommandLine.afterPipe, hdata]
      have hread := hwrites.read hstatus pipe hdata
      rw [hphase]
      -- The pipe that was read is open, and stays so.
      cases pipe with
      | stdout =>
        obtain rfl : stdoutOpen = true := hopen
        have hother := hstderr.other (show PipeEnd.stdout ≠ .stderr by decide) data
        exact ⟨⟨hdata, CommandLine.tracks_loop hread hstatus (hstdout.read hdata) hother⟩, hshort⟩
      | stderr =>
        obtain rfl : stderrOpen = true := hopen
        have hother := hstdout.other (show PipeEnd.stderr ≠ .stdout by decide) data
        exact ⟨⟨hdata, CommandLine.tracks_loop hread hstatus hother (hstderr.read hdata)⟩, hshort⟩

/-- The status line is written last. -/
theorem afterWait (h : Running .wait o) (result : Poll (Res ExitStatus)) :
    Running (.afterWait result) (o.afterWait result) := by
  obtain ⟨hwrites, hstatus, hstdout, hstderr⟩ := h.tracks
  cases result using Poll.resultCases with
  | pending => exact h
  | error e => exact h.fail e
  | ok status =>
    exact ⟨⟨statusLine_ne_nil status, hwrites.wait hstatus status, rfl, hstdout, hstderr⟩, h.short⟩

/-- A write that is not pending signs the whole buffer as one packet. -/
theorem afterWrite {buf : Bytes} {next : CommandLine} (h : Running (.writeAll buf next) o)
    {result : Poll (Res ℕ)} (hwhole : ∀ n, result = .ready (.ok n) → n = buf.length) :
    Running (.afterWrite buf next result) (o.afterSend (signedByWrite buf result)) := by
  obtain ⟨hbuf, htracks⟩ := h.tracks
  cases result using Poll.resultCases with
  | pending =>
    have hsame : o.afterSend (signedByWrite buf .pending) = o := by
      simp [signedByWrite, Output.afterSend]
    rw [hsame]
    exact h
  | error e =>
    have hsame : o.afterSend (signedByWrite buf (.ready (.error e))) = o := by
      simp [signedByWrite, Output.afterSend]
    rw [hsame]
    exact h.fail e
  | ok n =>
    obtain rfl := hwhole n rfl
    have hphase : CommandLine.afterWrite buf next (.ready (.ok buf.length)) = next := by
      simp [CommandLine.afterWrite, hbuf]
    have hsigned : signedByWrite buf (.ready (.ok buf.length)) = some buf := by
      simp [signedByWrite, hbuf]
    rw [hphase, hsigned]
    exact ⟨htracks.sent, h.short⟩

theorem afterFlush {next : CommandLine} (h : Running (.flush next) o) (result : Poll (Res Unit)) :
    Running (.afterFlush next result) o := by
  cases result using Poll.resultCases with
  | pending => exact h
  | error e => exact h.fail e
  | ok u => exact ⟨h.tracks, h.short⟩

end Running

end Axsh

/-
# The shell session

The main loop of `axsh` on one side of a channel and `handle_connection` of `axshd` on
the other. The client writes each line of its input with one `write_all`, which the
stream turns into exactly one packet; the server reads its stream through a line reader
and runs each line it completes. The line reader also returns a last line that has no
newline when its stream ends, and the end of a stream is not authenticated. What the
attacker ends is nevertheless never in the middle of a line: the server's stream
reports its end only with every byte of the accepted packets delivered (`Reads.eof`), and
a packet is a whole line.
-/

import Axsh.Channel
import Axsh.ReadSide
import Axsh.Text

set_option autoImplicit false

namespace Axsh

open PayloadStream

/-! ## The client's main loop -/

/-- What the main loop of `axsh` waits for. -/
inductive MainLoop
  /-- `select!` between a read of the stream and, while it is open, a line of `stdin`. -/
  | select (stdinOpen : Bool)
  /-- `write_all` of what is left of a line. -/
  | writeAll (buf : Bytes)
  /-- `shutdown`, after the end of `stdin` or before the end of the program. -/
  | shutdown (exit : Bool)
  /-- `flush`, and then back to `select!` or out of the program. -/
  | flush (stdinOpen exit : Bool)
  | returned

namespace MainLoop

/-- The loop after a poll of the read in `select!`. -/
def afterRead (stdinOpen : Bool) : Poll (Res Bytes) → MainLoop
  | .pending => .select stdinOpen
  | .ready (.error _) => .returned
  | .ready (.ok data) => if data.isEmpty then .shutdown true else .select stdinOpen

/-- The loop after a poll of `write_all`. -/
def afterWrite (buf : Bytes) : Poll (Res ℕ) → MainLoop
  | .pending => .writeAll buf
  | .ready (.error _) => .returned
  | .ready (.ok n) =>
    -- `write_all` fails with `WriteZero` when nothing is taken.
    if n = 0 then .returned
    else if buf.drop n = [] then .flush true false
    else .writeAll (buf.drop n)

/-- The loop after a poll of `shutdown`. -/
def afterShutdown (exit : Bool) : Poll (Res Unit) → MainLoop
  | .pending => .shutdown exit
  | .ready (.error _) => .returned
  | .ready (.ok ()) => .flush false exit

/-- The loop after a poll of `flush`. -/
def afterFlush (stdinOpen exit : Bool) : Poll (Res Unit) → MainLoop
  | .pending => .flush stdinOpen exit
  | .ready (.error _) => .returned
  | .ready (.ok ()) => if exit then .returned else .select stdinOpen

end MainLoop

/-- The bytes that are written for a line of `stdin`. -/
def lineBytes (line : Text) : Bytes := utf8 line ++ [0x0a]

/-! ## The server's handler -/

/-- What `handle_connection` waits for. -/
inductive Handler
  | nextLine
  | runCommandLine
  | returned

/-- The `Lines` of a `BufReader`: the bytes read from the stream that no line has yet,
and the line so far. -/
structure LineReader where
  available : Bytes
  line : Bytes

/-- What `Lines::next_line` takes off a line. -/
def stripNewline (line : Text) : Text :=
  if line.getLast? = some '\n' then stripCr line.dropLast else line

/-- `Lines::next_line` once it has the bytes of a line: `Ok(None)` when there are none, an
error when they are not UTF-8, and otherwise the line. -/
def finishLine (bytes : Bytes) : Res (Option Text) :=
  if bytes = [] then .ok none
  else
    match fromUtf8? bytes with
    | none => .error (.error .invalidData "stream did not contain valid UTF-8")
    | some line => .ok (some (stripNewline line))

/-! ## Sessions -/

/-- A session: the channel from the client to the server, the client's loop with the
lines it got from `stdin`, and the server's handler with the commands it ran. -/
structure Shell (C : Crypto) where
  channel : Channel C
  client : MainLoop
  lines : List Text
  reader : LineReader
  server : Handler
  commands : List Text

namespace Shell

variable {C : Crypto}

/-- Both sides have a new stream, of which the server's has the client's packet key. -/
def start (clientKey : C.Ed25519KeyPair) (clientVerify : PacketVerify)
    (serverSign : PacketSign C) (now : Instant) : Shell C where
  channel := .start clientKey clientVerify serverSign now
  client := .select true
  lines := []
  reader := ⟨[], []⟩
  server := .nextLine
  commands := []

/-- A poll of `write_all`. -/
def clientWrite (w : Shell C) (buf : Bytes) (answers : List WriteResult) : Shell C :=
  { w with
    channel := w.channel.afterSend (.write buf answers)
    client := .afterWrite buf (w.channel.sender.pollWritePayload buf answers).result }

/-- The handler has the bytes of a line, and goes on with `reader`. -/
def finish (w : Shell C) (bytes : Bytes) (reader : LineReader) : Shell C :=
  match finishLine bytes with
  | .error _ | .ok none => { w with reader, server := .returned }
  | .ok (some command) =>
    { w with reader, server := .runCommandLine, commands := w.commands ++ [command] }

/-- The line reader has no bytes, and reads some. At the end of the stream the line is
what it has. -/
def serverRead (w : Shell C) (call : ReadCall) : Shell C :=
  let read := { w with channel := w.channel.afterRead call }
  match (w.channel.receiver.read call).result with
  | .pending => read
  | .ready (.error _) => { read with server := .returned }
  | .ready (.ok data) =>
    if data.isEmpty then read.finish w.reader.line ⟨[], []⟩
    else { read with reader := ⟨data, w.reader.line⟩ }

/-- The line reader has bytes, and looks for a newline in them. -/
def serverScan (w : Shell C) : Shell C :=
  if 0x0a ∈ w.reader.available then
    let front := w.reader.available.takeWhile (· ≠ 0x0a)
    let rest := (w.reader.available.dropWhile (· ≠ 0x0a)).tail
    w.finish (w.reader.line ++ front ++ [0x0a]) ⟨rest, []⟩
  else { w with reader := ⟨[], w.reader.line ++ w.reader.available⟩ }

/-- The steps of a session. The attacker chooses all answers of the underlying streams; the
verdicts that the server gets are those of an Ed25519 that nobody has forged under the
client's packet key so far. -/
inductive Step : Shell C → Shell C → Prop
  /-- A line of `stdin`. -/
  | stdinLine (w : Shell C) (line : Text) (hclient : w.client = .select true)
      (hline : '\n' ∉ line) :
      Step w { w with client := .writeAll (lineBytes line), lines := w.lines ++ [line] }
  /-- The end of `stdin`. -/
  | stdinEnd (w : Shell C) (hclient : w.client = .select true) :
      Step w { w with client := .shutdown false }
  | stdinError (w : Shell C) (hclient : w.client = .select true) :
      Step w { w with client := .returned }
  | clientRead (w : Shell C) (stdinOpen : Bool) (hclient : w.client = .select stdinOpen)
      (call : ReadCall) (hroom : call.remaining = 1024) :
      Step w { w with
        channel := { w.channel with sender := (w.channel.sender.read call).stream }
        client := .afterRead stdinOpen (w.channel.sender.read call).result }
  | clientWrite (w : Shell C) (buf : Bytes) (hclient : w.client = .writeAll buf)
      (answers : List WriteResult) : Step w (w.clientWrite buf answers)
  | clientShutdown (w : Shell C) (exit : Bool) (hclient : w.client = .shutdown exit)
      (answers : List WriteResult) (poll : Poll (Res Unit)) :
      Step w { w with
        channel := w.channel.afterSend (.shutdown answers poll)
        client := .afterShutdown exit (w.channel.sender.pollShutdownPayload answers poll).result }
  | clientFlush (w : Shell C) (stdinOpen exit : Bool)
      (hclient : w.client = .flush stdinOpen exit) (answers : List WriteResult)
      (poll : Poll (Res Unit)) :
      Step w { w with
        channel := w.channel.afterSend (.flush answers poll)
        client := .afterFlush stdinOpen exit
          (w.channel.sender.pollFlushPayload answers poll).result }
  | serverRead (w : Shell C) (hserver : w.server = .nextLine) (havailable : w.reader.available = [])
      (call : ReadCall) (hroom : call.remaining = 8192)
      (unforged : call.V.Ed25519Unforgeable w.channel.sender.packetSign.publicKeyBytes.1
        (· ∈ w.channel.signed)) : Step w (w.serverRead call)
  | serverScan (w : Shell C) (hserver : w.server = .nextLine)
      (havailable : w.reader.available ≠ []) : Step w w.serverScan
  /-- `run_command_line` writes output. -/
  | serverSend (w : Shell C) (hserver : w.server = .runCommandLine) (call : SendCall) :
      Step w { w with
        channel := { w.channel with receiver := (w.channel.receiver.send call).stream } }
  /-- `run_command_line` returns. -/
  | serverDone (w : Shell C) (hserver : w.server = .runCommandLine) :
      Step w { w with server := .nextLine }
  /-- `run_command_line` fails. -/
  | serverFail (w : Shell C) (hserver : w.server = .runCommandLine) :
      Step w { w with server := .returned }

abbrev Run : Shell C → Shell C → Prop := Relation.ReflTransGen Step

/-! ## What a session keeps -/

/-- The lines that the client has read and not signed yet, by what its loop waits for. -/
def Unsigned : MainLoop → List Text → Prop
  | .writeAll buf, rest => ∃ line, rest = [line] ∧ buf = lineBytes line
  | .returned, _ => True
  | .select _, rest | .shutdown _, rest | .flush _ _, rest => rest = []

/-- The first lines are the packets that were signed. What the server has read is the lines
it has run, the line so far and what is available. -/
structure Keeps (w : Shell C) (c : Cursor Bytes) (sent done : List Text) : Prop where
  follows : w.channel.Follows c
  clean : ∀ line ∈ w.lines, '\n' ∉ line
  cleanDone : ∀ line ∈ done, '\n' ∉ line
  log : c.log = sent.map lineBytes
  unsigned : ∃ rest, w.lines = sent ++ rest ∧ Unsigned w.client rest
  delivered : w.channel.delivered =
    Lines.join 0x0a (done.map utf8) ++ (w.reader.line ++ w.reader.available)
  line : 0x0a ∉ w.reader.line
  commands : w.commands = done.map stripCr

theorem flatten_lineBytes (sent : List Text) :
    (sent.map lineBytes).flatten = Lines.join 0x0a (sent.map utf8) := by
  induction sent with
  | nil => rfl
  | cons line sent ih => simp [lineBytes, ih]

theorem clean_utf8 {sent : List Text} (h : ∀ line ∈ sent, '\n' ∉ line) :
    Lines.Clean 0x0a (sent.map utf8) := by
  intro bytes hbytes
  obtain ⟨line, hline, rfl⟩ := List.mem_map.mp hbytes
  exact newline_mem_utf8.not.mpr (h line hline)

section Keeps

variable {w : Shell C} {c : Cursor Bytes} {sent done : List Text}

theorem Keeps.clean_sent (h : w.Keeps c sent done) : ∀ line ∈ sent, '\n' ∉ line := by
  obtain ⟨rest, hlines, -⟩ := h.unsigned
  exact fun line hline => h.clean line (hlines ▸ List.mem_append_left rest hline)

/-- Lines that the server has completed are the first lines that were signed. -/
theorem Keeps.isPrefix_sent (h : w.Keeps c sent done) {front : List Bytes} {rest : Bytes}
    (hfront : Lines.Clean 0x0a front)
    (hdelivered : w.channel.delivered = Lines.join 0x0a front ++ rest) :
    front <+: sent.map utf8 := by
  have hlog : Lines.join 0x0a front ++ rest <+: Lines.join 0x0a (sent.map utf8) := by
    rw [← hdelivered, ← flatten_lineBytes, ← h.log]
    exact List.IsPrefix.trans ⟨_, h.follows.delivered⟩ c.flatten_taken_prefix
  exact Lines.isPrefix_of_join_append hfront (clean_utf8 h.clean_sent) hlog

/-- The lines that the server has run are the first lines that were signed. -/
theorem Keeps.done_isPrefix (h : w.Keeps c sent done) : done <+: sent := by
  have hbytes : done.map utf8 <+: sent.map utf8 :=
    h.isPrefix_sent (clean_utf8 h.cleanDone) h.delivered
  rw [List.prefix_iff_eq_take, List.length_map, ← List.map_take] at hbytes
  rw [List.map_injective_iff.mpr utf8_injective hbytes]
  exact List.take_prefix ..

/-- The next line that the server completes is one that was signed. -/
theorem Keeps.exists_line (h : w.Keeps c sent done) {bytes rest : Bytes} (hbytes : 0x0a ∉ bytes)
    (hdelivered : w.channel.delivered =
      Lines.join 0x0a (done.map utf8) ++ (bytes ++ 0x0a :: rest)) :
    ∃ line, '\n' ∉ line ∧ bytes = utf8 line := by
  have hclean : Lines.Clean 0x0a (done.map utf8 ++ [bytes]) :=
    (clean_utf8 h.cleanDone).append fun line hline => List.mem_singleton.mp hline ▸ hbytes
  have hsplit : w.channel.delivered = Lines.join 0x0a (done.map utf8 ++ [bytes]) ++ rest := by
    rw [hdelivered, Lines.join_append]
    simp
  have hmem : bytes ∈ sent.map utf8 := (h.isPrefix_sent hclean hsplit).subset (by simp)
  obtain ⟨line, hline, rfl⟩ := List.mem_map.mp hmem
  exact ⟨line, h.clean_sent line hline, rfl⟩

end Keeps

/-! ## The steps of the client -/

section Client

variable {w : Shell C} {c : Cursor Bytes} {sent done : List Text}

/-- A loop that is not writing has signed all its lines. -/
theorem unsigned_nil (client : MainLoop) (h : ∀ buf, client ≠ .writeAll buf) :
    Unsigned client [] := by
  cases client with
  | writeAll buf => exact absurd rfl (h buf)
  | returned => trivial
  | select | shutdown | flush => rfl

/-- The loop does not go to a line from anything but `select!`. -/
theorem unsigned_afterRead (stdinOpen : Bool) (result : Poll (Res Bytes)) :
    Unsigned (.afterRead stdinOpen result) [] := by
  refine unsigned_nil _ fun buf => ?_
  unfold MainLoop.afterRead
  split
  · nofun
  · nofun
  · split_ifs <;> nofun

theorem unsigned_afterShutdown (exit : Bool) (result : Poll (Res Unit)) :
    Unsigned (.afterShutdown exit result) [] := by
  refine unsigned_nil _ fun buf => ?_
  unfold MainLoop.afterShutdown
  split <;> nofun

theorem unsigned_afterFlush (stdinOpen exit : Bool) (result : Poll (Res Unit)) :
    Unsigned (.afterFlush stdinOpen exit result) [] := by
  refine unsigned_nil _ fun buf => ?_
  unfold MainLoop.afterFlush
  split
  · nofun
  · nofun
  · split_ifs <;> nofun

theorem keeps_start (clientKey : C.Ed25519KeyPair) (clientVerify : PacketVerify)
    (serverSign : PacketSign C) (now : Instant) :
    (start clientKey clientVerify serverSign now).Keeps .start [] [] where
  follows := Channel.follows_start clientKey clientVerify serverSign now
  clean := by simp [start]
  cleanDone := by simp
  log := rfl
  unsigned := ⟨[], rfl, rfl⟩
  delivered := rfl
  line := by simp [start]
  commands := rfl

/-- A call of the client's stream that signs nothing. -/
theorem Keeps.afterSend (h : w.Keeps c sent done) (call : SendCall)
    (hsigned : (w.channel.sender.send call).signed = none) (client : MainLoop)
    (hclient : ∀ rest, Unsigned w.client rest → Unsigned client rest) :
    ∃ c', { w with channel := w.channel.afterSend call, client := client }.Keeps c' sent done := by
  obtain ⟨c', hfollows, hlog⟩ := h.follows.afterSend call
  obtain ⟨rest, hlines, hunsigned⟩ := h.unsigned
  rw [hsigned] at hlog
  exact ⟨c', hfollows, h.clean, h.cleanDone, by rw [hlog, h.log]; simp,
    ⟨rest, hlines, hclient rest hunsigned⟩, h.delivered, h.line, h.commands⟩

/-- One call of the client's stream that returns has signed the whole line. -/
theorem Keeps.clientWrite (h : w.Keeps c sent done) {buf : Bytes}
    (hclient : w.client = .writeAll buf) (answers : List WriteResult) :
    ∃ c' sent', (w.clientWrite buf answers).Keeps c' sent' done := by
  obtain ⟨rest, hlines, hunsigned⟩ := h.unsigned
  rw [hclient] at hunsigned
  -- While the client is in `write_all`, what it has not signed is one whole line.
  obtain ⟨line, rfl, rfl⟩ := hunsigned
  match hresult : (w.channel.sender.pollWritePayload (lineBytes line) answers).result with
  -- Pending or failed, the call has signed nothing: the stream only drained.
  | .pending =>
    obtain ⟨c', hkeeps⟩ := h.afterSend (.write (lineBytes line) answers)
      (by simp only [send, hresult]; rfl) (.writeAll (lineBytes line))
      (fun rest hrest => hclient ▸ hrest)
    exact ⟨c', sent, by rw [Shell.clientWrite, hresult]; exact hkeeps⟩
  | .ready (.error e) =>
    obtain ⟨c', hkeeps⟩ := h.afterSend (.write (lineBytes line) answers)
      (by simp only [send, hresult]; rfl) .returned (fun _ _ => trivial)
    exact ⟨c', sent, by rw [Shell.clientWrite, hresult]; exact hkeeps⟩
  | .ready (.ok n) =>
    -- A write takes the whole buffer, so the line is one payload.
    obtain rfl := (pollWritePayload_spec h.follows.senderBounded.write _ _).2 n hresult
    have hne : lineBytes line ≠ [] := by simp [lineBytes]
    have hsigned : (w.channel.sender.send (.write (lineBytes line) answers)).signed =
        some (lineBytes line) := by
      simp only [send, hresult, signedByWrite]
      simp [hne]
    obtain ⟨c', hfollows, hlog⟩ := h.follows.afterSend (.write (lineBytes line) answers)
    rw [hsigned] at hlog
    have hloop : MainLoop.afterWrite (lineBytes line)
        (.ready (.ok (lineBytes line).length)) = .flush true false := by
      simp [MainLoop.afterWrite, hne]
    refine ⟨c', sent ++ [line], hfollows, h.clean, h.cleanDone, by rw [hlog, h.log]; simp,
      ⟨[], by simp [Shell.clientWrite, hlines], ?_⟩, h.delivered, h.line, h.commands⟩
    rw [Shell.clientWrite, hresult, hloop]
    rfl

end Client

/-! ## The steps of the server -/

section Server

variable {w : Shell C} {c : Cursor Bytes} {sent done : List Text}

/-- A line with its newline is run as the line without it and without a `\r` before it. -/
theorem finishLine_lineBytes (line : Text) :
    finishLine (lineBytes line) = .ok (some (stripCr line)) := by
  have htext : lineBytes line = utf8 (line ++ ['\n']) := by
    rw [utf8_append, utf8_newline, lineBytes]
  have hne : lineBytes line ≠ [] := by simp [lineBytes]
  rw [finishLine, if_neg hne, htext, fromUtf8?_utf8]
  simp [stripNewline]

/-- The line reader finds a newline, and the handler runs the line. -/
theorem Keeps.finish (h : w.Keeps c sent done) {bytes rest : Bytes} (hbytes : 0x0a ∉ bytes)
    (hdelivered : w.channel.delivered =
      Lines.join 0x0a (done.map utf8) ++ (bytes ++ 0x0a :: rest)) :
    ∃ done', (w.finish (bytes ++ [0x0a]) ⟨rest, []⟩).Keeps c sent done' := by
  obtain ⟨line, hline, rfl⟩ := h.exists_line hbytes hdelivered
  -- What was read up to the newline is a line of the client with its newline.
  have hfinish : w.finish (utf8 line ++ [0x0a]) ⟨rest, []⟩ =
      { w with
        reader := ⟨rest, []⟩, server := .runCommandLine
        commands := w.commands ++ [stripCr line] } := by
    rw [Shell.finish, ← lineBytes, finishLine_lineBytes]
  rw [hfinish]
  refine ⟨done ++ [line], h.follows, h.clean, ?_, h.log, h.unsigned, ?_, List.not_mem_nil, ?_⟩
  · intro later hlater
    rcases List.mem_append.mp hlater with hlater | hlater
    · exact h.cleanDone later hlater
    · exact List.mem_singleton.mp hlater ▸ hline
  · change w.channel.delivered = _
    rw [hdelivered, List.map_append, Lines.join_append]
    simp
  · change w.commands ++ _ = _
    rw [h.commands, List.map_append, List.map_singleton]

theorem Keeps.serverScan (h : w.Keeps c sent done) : ∃ done', w.serverScan.Keeps c sent done' := by
  unfold Shell.serverScan
  split_ifs with hmem
  · -- `front` is what is available before the first newline.
    obtain ⟨front, rest, havailable, hfront⟩ := List.eq_append_cons_of_mem hmem
    obtain ⟨htake, hdrop⟩ := Lines.takeWhile_dropWhile_append hfront rest
    have hline : 0x0a ∉ w.reader.line ++ front := List.not_mem_append h.line hfront
    rw [havailable, htake, hdrop]
    apply h.finish hline
    rw [h.delivered, havailable, List.append_assoc w.reader.line]
  · refine ⟨done, h.follows, h.clean, h.cleanDone, h.log, h.unsigned, ?_, ?_, h.commands⟩
    · change w.channel.delivered = _
      rw [h.delivered, List.append_nil]
    · exact List.not_mem_append h.line hmem

/-- When everything that was accepted is delivered and scanned, the line reader has no part
of a line: what was accepted is whole packets, and a packet is a whole line. -/
theorem Keeps.line_eq_nil (h : w.Keeps c sent done) (havailable : w.reader.available = [])
    (hunread : w.channel.receiver.unread = []) : w.reader.line = [] := by
  have htaken : c.taken = (sent.take c.pos).map lineBytes := by
    rw [Cursor.taken, h.log, List.map_take]
  have hwhole : w.channel.delivered = Lines.join 0x0a ((sent.take c.pos).map utf8) ++ [] := by
    have hdelivered := h.follows.delivered
    rw [hunread, List.append_nil, htaken, flatten_lineBytes] at hdelivered
    rw [hdelivered, List.append_nil]
  have hpart : w.channel.delivered = Lines.join 0x0a (done.map utf8) ++ w.reader.line := by
    rw [h.delivered, havailable, List.append_nil]
  have hclean : ∀ line ∈ sent.take c.pos, '\n' ∉ line :=
    fun line hline => h.clean_sent line (List.mem_of_mem_take hline)
  -- The text of the lines delivered has one decomposition.
  have hsplit := Lines.split_join (clean_utf8 hclean) (List.not_mem_nil : (0x0a : UInt8) ∉ [])
  rw [← hwhole, hpart, Lines.split_join (clean_utf8 h.cleanDone) h.line] at hsplit
  exact (Prod.mk.inj hsplit).2

/-- A read of the line reader. -/
theorem Keeps.serverRead (h : w.Keeps c sent done) (havailable : w.reader.available = [])
    (call : ReadCall) (hroom : call.remaining = 8192) (hcount : w.channel.signed.length < 2 ^ 64)
    (unforged : call.V.Ed25519Unforgeable w.channel.sender.packetSign.publicKeyBytes.1
      (· ∈ w.channel.signed)) :
    ∃ c', (w.serverRead call).Keeps c' sent done := by
  obtain ⟨c', hfollows, hlog⟩ := h.follows.afterRead hcount call unforged
  have hlog' : c'.log = sent.map lineBytes := hlog.trans h.log
  -- The session after the read, with what the line reader has of it.
  have hread (reader : LineReader) (hline : reader.line = w.reader.line)
      (hdelivered : deliveredBy (w.channel.receiver.read call).result = reader.available) :
      { w with channel := w.channel.afterRead call, reader := reader }.Keeps c' sent done := by
    refine ⟨hfollows, h.clean, h.cleanDone, hlog', h.unsigned, ?_, hline ▸ h.line, h.commands⟩
    change w.channel.delivered ++ deliveredBy _ = _
    rw [hdelivered, h.delivered, havailable, hline]
    simp
  have hreads := reads h.follows.receiverBounded.read call (by omega)
  refine ⟨c', ?_⟩
  unfold Shell.serverRead
  match hresult : (w.channel.receiver.read call).result with
  | .pending =>
    rw [hresult] at hread
    exact hread w.reader rfl havailable.symm
  | .ready (.error e) =>
    rw [hresult] at hread
    have hkeeps := hread w.reader rfl havailable.symm
    exact ⟨hkeeps.follows, hkeeps.clean, hkeeps.cleanDone, hkeeps.log, hkeeps.unsigned,
      hkeeps.delivered, hkeeps.line, hkeeps.commands⟩
  | .ready (.ok []) =>
    rw [hresult] at hread
    have hkeeps := hread w.reader rfl havailable.symm
    -- The end of the stream is met with everything delivered, so there is no line to run.
    have hline : w.reader.line = [] := hkeeps.line_eq_nil havailable (hreads.eof hresult).2
    have hreader : w.reader = ⟨[], []⟩ := congrArg₂ LineReader.mk havailable hline
    simp only [List.isEmpty_nil, if_true, hline, Shell.finish, finishLine]
    rw [hreader] at hkeeps
    exact ⟨hkeeps.follows, hkeeps.clean, hkeeps.cleanDone, hkeeps.log, hkeeps.unsigned,
      hkeeps.delivered, hkeeps.line, hkeeps.commands⟩
  | .ready (.ok (byte :: data)) =>
    rw [hresult] at hread
    exact hread ⟨byte :: data, w.reader.line⟩ rfl rfl

end Server

/-! ## Every run -/

section Runs

variable {w w' : Shell C} {c : Cursor Bytes} {sent done : List Text}

/-- A step never takes a signature back. -/
theorem Step.length_signed_le (h : Step w w') :
    w.channel.signed.length ≤ w'.channel.signed.length := by
  have hsend (call : SendCall) :
      w.channel.signed.length ≤ (w.channel.afterSend call).signed.length :=
    (Channel.Step.send w.channel call).length_signed_le
  have hfinish (v : Shell C) (bytes : Bytes) (reader : LineReader) :
      (v.finish bytes reader).channel = v.channel := by
    unfold finish
    split <;> rfl
  cases h with
  | stdinLine | stdinEnd | stdinError | serverDone | serverFail | clientRead | serverSend =>
    exact le_rfl
  -- Only the client's own calls sign. On the server's side the log is not touched, whether or not a
  -- line is finished.
  | clientWrite buf _ answers => exact hsend (.write buf answers)
  | clientShutdown _ _ answers poll => exact hsend (.shutdown answers poll)
  | clientFlush _ _ _ answers poll => exact hsend (.flush answers poll)
  | serverRead _ _ call _ _ =>
    unfold Shell.serverRead
    split
    · exact le_rfl
    · exact le_rfl
    · split_ifs
      · rw [hfinish]
        exact le_rfl
      · exact le_rfl
  | serverScan _ _ =>
    unfold Shell.serverScan
    split_ifs
    · rw [hfinish]
    · exact le_rfl

/-- Every step keeps a session as it should be. -/
theorem Keeps.step (h : w.Keeps c sent done) (hstep : Step w w')
    (hcount : w.channel.signed.length < 2 ^ 64) : ∃ c' sent' done', w'.Keeps c' sent' done' := by
  cases hstep with
  -- The client takes a line only in `select!`, with every earlier line signed.
  | stdinLine line hclient hline =>
    obtain ⟨rest, hlines, hunsigned⟩ := h.unsigned
    rw [hclient] at hunsigned
    obtain rfl : rest = [] := hunsigned
    refine ⟨c, sent, done, h.follows, ?_, h.cleanDone, h.log, ⟨[line], ?_, line, rfl, rfl⟩,
      h.delivered, h.line, h.commands⟩
    · intro later hlater
      rcases List.mem_append.mp hlater with hlater | hlater
      · exact h.clean later hlater
      · exact List.mem_singleton.mp hlater ▸ hline
    · rw [hlines, List.append_nil]
  | stdinEnd hclient =>
    obtain ⟨rest, hlines, hunsigned⟩ := h.unsigned
    rw [hclient] at hunsigned
    exact ⟨c, sent, done, h.follows, h.clean, h.cleanDone, h.log, ⟨rest, hlines, hunsigned⟩,
      h.delivered, h.line, h.commands⟩
  | stdinError hclient =>
    obtain ⟨rest, hlines, -⟩ := h.unsigned
    exact ⟨c, sent, done, h.follows, h.clean, h.cleanDone, h.log, ⟨rest, hlines, trivial⟩,
      h.delivered, h.line, h.commands⟩
  | clientRead stdinOpen hclient call hroom =>
    obtain ⟨rest, hlines, hunsigned⟩ := h.unsigned
    rw [hclient] at hunsigned
    obtain rfl : rest = [] := hunsigned
    exact ⟨c, sent, done, h.follows.senderRead call, h.clean, h.cleanDone, h.log,
      ⟨[], hlines, unsigned_afterRead ..⟩, h.delivered, h.line, h.commands⟩
  | clientWrite buf hclient answers =>
    obtain ⟨c', sent', hkeeps⟩ := h.clientWrite hclient answers
    exact ⟨c', sent', done, hkeeps⟩
  -- A shutdown or a flush drains the stream and signs nothing.
  | clientShutdown exit hclient answers poll =>
    obtain ⟨c', hkeeps⟩ := h.afterSend (.shutdown answers poll) rfl
      (.afterShutdown exit (w.channel.sender.pollShutdownPayload answers poll).result)
      fun rest hunsigned => by
        rw [hclient] at hunsigned
        obtain rfl : rest = [] := hunsigned
        exact unsigned_afterShutdown ..
    exact ⟨c', sent, done, hkeeps⟩
  | clientFlush stdinOpen exit hclient answers poll =>
    obtain ⟨c', hkeeps⟩ := h.afterSend (.flush answers poll) rfl
      (.afterFlush stdinOpen exit (w.channel.sender.pollFlushPayload answers poll).result)
      fun rest hunsigned => by
        rw [hclient] at hunsigned
        obtain rfl : rest = [] := hunsigned
        exact unsigned_afterFlush ..
    exact ⟨c', sent, done, hkeeps⟩
  -- The server's reads are where the attacker comes in: what they deliver is a prefix of what was
  -- signed.
  | serverRead hserver havailable call hroom unforged =>
    obtain ⟨c', hkeeps⟩ := h.serverRead havailable call hroom hcount unforged
    exact ⟨c', sent, done, hkeeps⟩
  | serverScan hserver havailable =>
    obtain ⟨done', hkeeps⟩ := h.serverScan
    exact ⟨c, sent, done', hkeeps⟩
  | serverSend hserver call =>
    exact ⟨c, sent, done, h.follows.receiverSend call, h.clean, h.cleanDone, h.log, h.unsigned,
      h.delivered, h.line, h.commands⟩
  | serverDone hserver | serverFail hserver =>
    exact ⟨c, sent, done, h.follows, h.clean, h.cleanDone, h.log, h.unsigned, h.delivered, h.line,
      h.commands⟩

/-- Along a run of fewer than 2^64 packets a session stays as it should be. -/
theorem Keeps.run (h : w.Keeps c sent done) (hrun : Run w w')
    (hcount : w'.channel.signed.length < 2 ^ 64) : ∃ c' sent' done', w'.Keeps c' sent' done' := by
  induction hrun with
  | refl => exact ⟨c, sent, done, h⟩
  | tail _ hstep ih =>
    have hless := hstep.length_signed_le.trans_lt hcount
    obtain ⟨c', sent', done', h'⟩ := ih hless
    exact h'.step hstep hless

end Runs

end Shell

end Axsh

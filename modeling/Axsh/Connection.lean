/-
# A client and a server together

Two programs and what is between them: the session that the lines go through, and the channel
that the output comes back on. A step of either program is a step of both or leaves them as they
are, when the verdicts it gets are unforged. So what holds of every session and of every channel
holds of two programs that run side by side and send in both directions at once.
-/

import Axsh.Programs

set_option autoImplicit false

namespace Axsh

open PayloadStream

variable {C : Crypto}

/-- The session that a client's lines and a server's commands make. -/
def shell (c : ClientProgram C) (s : ServerProgram C) : Shell C where
  channel := c.endpoint.channel s.endpoint
  client := c.loop
  lines := c.lines
  reader := s.reader
  server := s.serving.handler
  commands := s.commands

/-- The channel that the server's output takes. -/
def reply (c : ClientProgram C) (s : ServerProgram C) : Channel C := s.endpoint.channel c.endpoint

section Steps

variable {ok : Verifier → Prop} {c c' : ClientProgram C} {s s' : ServerProgram C}

theorem shell_finish (c : ClientProgram C) (s : ServerProgram C) (bytes : Bytes)
    (reader : LineReader) :
    shell c (s.finish bytes reader) = (shell c s).finish bytes reader := by
  unfold ServerProgram.finish Shell.finish
  match finishLine bytes with
  | .error e => rfl
  | .ok none => rfl
  | .ok (some command) => rfl

theorem shell_read (c : ClientProgram C) (s : ServerProgram C) (call : ReadCall) :
    shell c (s.read call) = (shell c s).serverRead call := by
  unfold ServerProgram.read Shell.serverRead
  have hresult : ((shell c s).channel.receiver.read call).result =
      (s.endpoint.stream.read call).result := rfl
  rw [hresult]
  cases (s.endpoint.stream.read call).result using Poll.resultCases with
  | pending | error e => rfl
  | ok data =>
    by_cases hdata : data.isEmpty
    · simp only [hdata, if_true]
      exact shell_finish c _ _ _
    · simp only [hdata]
      rfl

theorem shell_scan (c : ClientProgram C) (s : ServerProgram C) :
    shell c s.scan = (shell c s).serverScan := by
  unfold ServerProgram.scan Shell.serverScan
  by_cases hmem : 0x0a ∈ s.reader.available
  · rw [if_pos hmem, if_pos (show 0x0a ∈ (shell c s).reader.available from hmem)]
    exact shell_finish c s _ _
  · rw [if_neg hmem, if_neg (show 0x0a ∉ (shell c s).reader.available from hmem)]
    rfl

/-- Within `run_command_line` only what is sent is seen outside. -/
theorem shell_running {phase : CommandLine} (hserving : s.serving = .runCommandLine phase)
    (c : ClientProgram C) (next : CommandLine) (output : Output) :
    shell c { s with serving := .runCommandLine next, output } = shell c s := by
  rw [shell, shell, hserving]
  rfl

theorem shell_send {phase : CommandLine} (hserving : s.serving = .runCommandLine phase)
    (c : ClientProgram C) (call : SendCall) (next : CommandLine) (output : Output) :
    Shell.Step (shell c s) (shell c { s with
      endpoint := s.endpoint.afterSend call, serving := .runCommandLine next, output }) := by
  have hsent := shell_running (s := { s with endpoint := s.endpoint.afterSend call })
    hserving c next
    output
  rw [hsent]
  exact .serverSend _ (congrArg Serving.handler hserving) call

/-- A step of the client is a step of the session. -/
theorem ClientProgram.Step.shell (hstep : Step ok c c') (s : ServerProgram C) :
    Shell.Step (shell c s) (shell c' s) := by
  cases hstep with
  | stdinLine line hloop hline => exact .stdinLine (Axsh.shell c s) line hloop hline
  | stdinEnd hloop => exact .stdinEnd (Axsh.shell c s) hloop
  | stdinError hloop => exact .stdinError (Axsh.shell c s) hloop
  | read stdinOpen hloop call hroom hV =>
    exact .clientRead (Axsh.shell c s) stdinOpen hloop call hroom
  | write buf hloop answers => exact .clientWrite (Axsh.shell c s) buf hloop answers
  | shutdown exit hloop answers poll =>
    exact .clientShutdown (Axsh.shell c s) exit hloop answers poll
  | flush stdinOpen exit hloop answers poll =>
    exact .clientFlush (Axsh.shell c s) stdinOpen exit hloop answers poll

/-- A step of the server is a step of the session, or is about its commands only. -/
theorem ServerProgram.Step.shell (hstep : Step ok s s') (c : ClientProgram C)
    (unforged : ∀ V, ok V →
      V.Ed25519Unforgeable c.endpoint.publicKey.1 (· ∈ c.endpoint.signed)) :
    Shell.Run (shell c s) (shell c s') := by
  cases hstep with
  | read hserving havailable call hroom hV =>
    rw [shell_read]
    exact .single (.serverRead _ (congrArg Serving.handler hserving) havailable call hroom
      (unforged _ hV))
  | scan hserving havailable =>
    rw [shell_scan]
    exact .single (.serverScan _ (congrArg Serving.handler hserving) havailable)
  | spawn hserving result => exact shell_running hserving c _ s.output ▸ .refl
  | pipe stdoutOpen stderrOpen hserving pipe hopen result hroom | wait hserving result =>
    rw [shell_running hserving]
  | write buf next hserving answers => exact .single (shell_send hserving c _ _ _)
  | flush next hserving answers poll => exact .single (shell_send hserving c _ _ s.output)
  | done hserving => exact .single (.serverDone _ (congrArg Serving.handler hserving))
  | failed e hserving => exact .single (.serverFail _ (congrArg Serving.handler hserving))

/-- A step of the client is a step of the channel back, or is not about its stream. -/
theorem ClientProgram.Step.reply (hstep : Step ok c c') (s : ServerProgram C)
    (unforged : ∀ V, ok V →
      V.Ed25519Unforgeable s.endpoint.publicKey.1 (· ∈ s.endpoint.signed)) :
    Channel.Run (reply c s) (reply c' s) := by
  cases hstep with
  | stdinLine | stdinEnd | stdinError => exact .refl
  | read stdinOpen hloop call hroom hV =>
    exact .single (.read (Axsh.reply c s) call (unforged _ hV))
  | write buf hloop answers =>
    exact .single (.receiverSend (Axsh.reply c s) (.write buf answers))
  | shutdown exit hloop answers poll =>
    exact .single (.receiverSend (Axsh.reply c s) (.shutdown answers poll))
  | flush stdinOpen exit hloop answers poll =>
    exact .single (.receiverSend (Axsh.reply c s) (.flush answers poll))

/-- A step of the server is one too. -/
theorem ServerProgram.Step.reply (hstep : Step ok s s') (c : ClientProgram C) :
    Channel.Run (reply c s) (reply c s') := by
  cases hstep with
  | read hserving havailable call hroom hV =>
    have hread : Axsh.reply c (s.read call) =
        { Axsh.reply c s with sender := ((Axsh.reply c s).sender.read call).stream } := by
      rw [Axsh.reply, ServerProgram.read_endpoint]
      rfl
    exact hread ▸ .single (.senderRead _ call)
  | scan hserving havailable =>
    rw [Axsh.reply, Axsh.reply, ServerProgram.scan_endpoint]
  | spawn | pipe | wait | done | failed => exact .refl
  | write buf next hserving answers =>
    exact .single (.send (Axsh.reply c s) (.write buf answers))
  | flush next hserving answers poll =>
    exact .single (.send (Axsh.reply c s) (.flush answers poll))

end Steps

/-! ## What two programs keep -/

/-- The server's commands are lines of the client. -/
def Commanded (c : ClientProgram C) (s : ServerProgram C) : Prop :=
  ∃ cursor sent done, (shell c s).Keeps cursor sent done

/-- What the client has read is output of the server. -/
def Replied (c : ClientProgram C) (s : ServerProgram C) : Prop :=
  ∃ cursor, (reply c s).Follows cursor

section Keeps

variable {ok : Verifier → Prop} {c c' : ClientProgram C} {s s' : ServerProgram C}

theorem commanded_start {packetSign : PacketSign C} {peer : PacketVerify}
    {serverSign : PacketSign C} {now : Instant}
    (hnew : packetSign = .new packetSign.keyPair) :
    Commanded (.start (.new packetSign peer))
      (.start (.new serverSign (.new packetSign.publicKeyBytes now))) := by
  rw [hnew]
  exact ⟨.start, [], [], Shell.keeps_start packetSign.keyPair peer serverSign now⟩

theorem replied_start {packetSign : PacketSign C} {peer : PacketVerify}
    {clientSign : PacketSign C} {now : Instant}
    (hnew : packetSign = .new packetSign.keyPair) :
    Replied (.start (.new clientSign (.new packetSign.publicKeyBytes now)))
      (.start (.new packetSign peer)) := by
  rw [hnew]
  exact ⟨.start, Channel.follows_start packetSign.keyPair peer clientSign now⟩

theorem Commanded.client (h : Commanded c s) (hstep : ClientProgram.Step ok c c')
    (hcount : c.endpoint.signed.length < 2 ^ 64) : Commanded c' s := by
  obtain ⟨cursor, sent, done, hkeeps⟩ := h
  exact hkeeps.step (hstep.shell s) hcount

theorem Commanded.server (h : Commanded c s) (hstep : ServerProgram.Step ok s s')
    (hcount : c.endpoint.signed.length < 2 ^ 64)
    (unforged : ∀ V, ok V → V.Ed25519Unforgeable c.endpoint.publicKey.1 (· ∈ c.endpoint.signed)) :
    Commanded c s' := by
  obtain ⟨cursor, sent, done, hkeeps⟩ := h
  exact hkeeps.run (hstep.shell c unforged) hcount

theorem Replied.client (h : Replied c s) (hstep : ClientProgram.Step ok c c')
    (hcount : s.endpoint.signed.length < 2 ^ 64)
    (unforged : ∀ V, ok V → V.Ed25519Unforgeable s.endpoint.publicKey.1 (· ∈ s.endpoint.signed)) :
    Replied c' s := by
  obtain ⟨cursor, hfollows⟩ := h
  exact hfollows.run (hstep.reply s unforged) hcount

theorem Replied.server (h : Replied c s) (hstep : ServerProgram.Step ok s s')
    (hcount : s'.endpoint.signed.length < 2 ^ 64) : Replied c s' := by
  obtain ⟨cursor, hfollows⟩ := h
  exact hfollows.run (hstep.reply c) hcount

/-- The commands are the first lines, each without one `\r` at its end. -/
theorem Commanded.commands_isPrefix (h : Commanded c s) : s.commands <+: c.lines.map stripCr := by
  obtain ⟨cursor, sent, done, hkeeps⟩ := h
  obtain ⟨rest, hlines, -⟩ := hkeeps.unsigned
  have hcommands : s.commands = done.map stripCr := hkeeps.commands
  have hall : c.lines = sent ++ rest := hlines
  rw [hcommands, hall]
  exact (hkeeps.done_isPrefix.trans (List.prefix_append ..)).map stripCr

/-- What the client has read is a front of what the server has written. -/
theorem Replied.delivered_isPrefix (h : Replied c s) :
    c.endpoint.delivered <+: s.endpoint.accepted := by
  obtain ⟨cursor, hfollows⟩ := h
  have haccepted : s.endpoint.accepted = cursor.log.flatten := hfollows.accepted
  rw [haccepted]
  exact List.IsPrefix.trans ⟨_, hfollows.delivered⟩ cursor.flatten_taken_prefix

end Keeps

end Axsh

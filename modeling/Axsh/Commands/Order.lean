/-
# The order of commands

The server of a session runs the first lines of the client, in order, as long as fewer
than 2^64 packets are signed. The packet counter is a 64-bit integer: the packet
after 2^64 others has the counter of the first, and a server that has seen none of them
accepts it. Both runs here are built from a client that is not disturbed: it sends a
line and the underlying stream takes its frame.
-/

import Axsh.Commands

set_option autoImplicit false

namespace Axsh.Shell

open PayloadStream

variable {C : Crypto}

/-! ## A client that sends -/

/-- The client waits for a line, and nothing is left to write. -/
structure Ready (w : Shell C) : Prop where
  client : w.client = .select true
  bounded : w.channel.sender.Bounded
  unsent : w.channel.sender.unsent = []

/-- The server's side of two sessions is the same. -/
structure SameServer (w w' : Shell C) : Prop where
  receiver : w'.channel.receiver = w.channel.receiver
  reader : w'.reader = w.reader
  server : w'.server = w.server
  commands : w'.commands = w.commands

/-- With nothing left to write, a write signs its buffer at once. -/
theorem pollWritePayload_of_unsent {stream : PayloadStream C}
    (hunsent : stream.unsent = []) {buf : Bytes} (hbuf : buf ≠ []) :
    (stream.pollWritePayload buf []).result = .ready (.ok buf.length) := by
  have hdone : ¬ stream.writeOffset < stream.writeBuffer.length := by
    have hlen := List.drop_eq_nil_iff.mp hunsent
    omega
  have hdrain : (stream.pollDrainWriteBuffer []).result = .ready (.ok ()) := by
    rw [pollDrainWriteBuffer, if_neg hdone]
  rw [pollWritePayload, hdrain]
  simp [hbuf, queuePayload_eq]

/-- An underlying stream that takes everything lets a flush finish. -/
theorem pollFlushPayload_whole (stream : PayloadStream C) :
    (stream.pollFlushPayload [.wrote stream.writeBuffer.length] (.ready (.ok ()))).result =
      .ready (.ok ()) := by
  have hdrain : (stream.pollDrainWriteBuffer [.wrote stream.writeBuffer.length]).result =
      .ready (.ok ()) := by
    rw [pollDrainWriteBuffer]
    -- A stream takes no more than it is offered, so this answer is as good as the exact length.
    split_ifs with hmore
    · have hoffered : min stream.writeBuffer.length
          (stream.writeBuffer.drop stream.writeOffset).length =
          stream.writeBuffer.length - stream.writeOffset := by
        rw [List.length_drop]
        omega
      have hpositive : stream.writeBuffer.length - stream.writeOffset ≠ 0 := by omega
      have hdone : ¬ stream.writeOffset + (stream.writeBuffer.length - stream.writeOffset) <
          stream.writeBuffer.length := by omega
      simp only [hoffered, hpositive, if_false]
      rw [pollDrainWriteBuffer, if_neg hdone]
    · rfl
  rw [pollFlushPayload, pollDrainThen, hdrain]

section Sending

variable {w : Shell C}

/-- The session after a line of `stdin` and the write of it. -/
def afterLine (w : Shell C) (line : Text) : Shell C :=
  { w with client := .writeAll (lineBytes line), lines := w.lines ++ [line] }.clientWrite
    (lineBytes line) []

/-- A ready client signs a line in one packet. -/
structure Signs (w w' : Shell C) (line : Text) : Prop where
  run : Run w w'
  server : SameServer w w'
  lines : w'.lines = w.lines ++ [line]
  sender : w'.channel.sender = w.channel.sender.queued (lineBytes line)
  signed : w'.channel.signed = w.channel.signed ++
    [packetSignatureInput w.channel.sender.packetSign.signCounter (lineBytes line)]
  client : w'.client = .flush true false

theorem Ready.signs (h : Ready w) {line : Text} (hline : '\n' ∉ line) :
    Signs w (w.afterLine line) line := by
  have hne : lineBytes line ≠ [] := by simp [lineBytes]
  have hresult := pollWritePayload_of_unsent h.unsent hne
  have hsigned : (w.channel.sender.send (.write (lineBytes line) [])).signed =
      some (lineBytes line) := by
    simp only [send, hresult, signedByWrite]
    simp [hne]
  have hsends := (send_spec h.bounded (.write (lineBytes line) [])).1
  rw [hsigned] at hsends
  refine ⟨?_, ⟨rfl, rfl, rfl, rfl⟩, rfl, hsends.next_eq, ?_, ?_⟩
  · exact .tail (.single (.stdinLine w line h.client hline))
      (.clientWrite _ (lineBytes line) rfl [])
  · simp [afterLine, clientWrite, Channel.afterSend, hsigned]
  · change MainLoop.afterWrite _ (w.channel.sender.pollWritePayload _ []).result = _
    rw [hresult]
    simp [MainLoop.afterWrite, hne]

/-- A ready client sends a line, and is ready again. -/
theorem Ready.sendLine (h : Ready w) {line : Text} (hline : '\n' ∉ line) :
    ∃ w', Run w w' ∧ Ready w' ∧ SameServer w w' ∧ w'.lines = w.lines ++ [line] ∧
      w'.channel.sender.packetSign = (w.channel.sender.packetSign.sign (lineBytes line)).2 := by
  have hsigns := h.signs hline
  -- The line is written and signed first; the flush then empties the write buffer.
  let before := w.afterLine line
  let call : SendCall :=
    .flush [.wrote before.channel.sender.writeBuffer.length] (.ready (.ok ()))
  have hresult := pollFlushPayload_whole before.channel.sender
  have hbounded : before.channel.sender.Bounded := by
    rw [hsigns.sender]
    exact ⟨h.bounded.read, Nat.zero_le _⟩
  obtain ⟨hdrains, hdone⟩ := pollDrainThen_spec hbounded.write
    [.wrote before.channel.sender.writeBuffer.length] (.ready (.ok ()))
  have hsign : (before.channel.sender.send call).stream.packetSign =
      before.channel.sender.packetSign := hdrains.packetSign
  refine ⟨{ before with
      channel := before.channel.afterSend call
      client := .afterFlush true false (before.channel.sender.pollFlushPayload
        [.wrote before.channel.sender.writeBuffer.length] (.ready (.ok ()))).result },
    .tail hsigns.run (.clientFlush before true false hsigns.client _ _), ⟨?_, ?_, ?_⟩,
    ⟨hsigns.server.receiver, hsigns.server.reader, hsigns.server.server,
      hsigns.server.commands⟩, hsigns.lines, ?_⟩
  · rw [hresult]
    rfl
  · exact (send_spec hbounded call).1.bounded hbounded
  · exact hdone hresult
  · change (before.channel.sender.send call).stream.packetSign = _
    rw [hsign, hsigns.sender]
    rfl

theorem SameServer.trans {w w' w'' : Shell C} (h : SameServer w w') (h' : SameServer w' w'') :
    SameServer w w'' where
  receiver := h'.receiver.trans h.receiver
  reader := h'.reader.trans h.reader
  server := h'.server.trans h.server
  commands := h'.commands.trans h.commands

/-- A ready client sends any number of empty lines, and its packet counter counts them. -/
theorem Ready.sendEmptyLines (h : Ready w) (n : ℕ) :
    ∃ w', Run w w' ∧ Ready w' ∧ SameServer w w' ∧ w'.lines = w.lines ++ List.replicate n [] ∧
      w'.channel.sender.packetSign = { w.channel.sender.packetSign with
        signCounter := w.channel.sender.packetSign.signCounter + UInt64.ofNat n } := by
  induction n with
  | zero => exact ⟨w, .refl, h, ⟨rfl, rfl, rfl, rfl⟩, by simp, by simp⟩
  | succ n ih =>
    obtain ⟨middle, hrun, hready, hserver, hlines, hsign⟩ := ih
    obtain ⟨w', hrun', hready', hserver', hlines', hsign'⟩ :=
      hready.sendLine (List.not_mem_nil : '\n' ∉ [])
    refine ⟨w', hrun.trans hrun', hready', hserver.trans hserver', ?_, ?_⟩
    · rw [hlines', hlines, List.replicate_succ', List.append_assoc]
    · rw [hsign', hsign, UInt64.ofNat_add, ← UInt64.add_assoc]
      rfl

end Sending

/-! ## A server that is shown one frame -/

section Showing

variable {w : Shell C}

/-- The line reader scans a whole line. -/
theorem serverScan_lineBytes {line : Text} (hline : '\n' ∉ line)
    (hreader : w.reader = ⟨lineBytes line, []⟩) :
    w.serverScan = { w with
      reader := ⟨[], []⟩, server := .runCommandLine,
      commands := w.commands ++ [stripCr line] } := by
  obtain ⟨htake, hdrop⟩ := Lines.takeWhile_dropWhile_append (newline_mem_utf8.not.mpr hline) []
  have hmem : 0x0a ∈ lineBytes line := by simp [lineBytes]
  have htake' : (lineBytes line).takeWhile (· ≠ 0x0a) = utf8 line := htake
  have hdrop' : ((lineBytes line).dropWhile (· ≠ 0x0a)).tail = [] := hdrop
  simp only [serverScan, hreader, hmem, if_true, htake', hdrop', List.nil_append]
  rw [finish, ← lineBytes, finishLine_lineBytes]

/-- The verdicts of an Ed25519 that accepts one line as the first packet of a key. -/
def lineVerifier (publicKey line : Bytes) : Verifier :=
  .recording [(publicKey, packetSignatureInput 0 line)]

/-- A server that has seen no packet runs a line that is signed with the counter of the first
packet, whatever the client has sent before. -/
theorem Ready.runLine (h : Ready w) {line : Text} (hline : '\n' ∉ line)
    (hlen : (lineBytes line).length ≤ 8192) {serverSign : PacketSign C}
    (hcounter : w.channel.sender.packetSign.signCounter = 0)
    (hreceiver : w.channel.receiver = PayloadStream.new serverSign
      (PacketVerify.new w.channel.sender.packetSign.publicKeyBytes 0))
    (hreader : w.reader = ⟨[], []⟩) (hserver : w.server = .nextLine) :
    ∃ w', Run w w' ∧ w'.commands = w.commands ++ [stripCr line] ∧
      w'.lines = w.lines ++ [line] ∧
      w'.channel.signed = w.channel.signed ++ [packetSignatureInput 0 (lineBytes line)] := by
  have hsigns := h.signs hline
  let signer := w.channel.sender.packetSign
  let before := w.afterLine line
  let call : ReadCall := ⟨lineVerifier signer.publicKeyBytes.1 (lineBytes line), fun _ => 0, 8192,
    (payloadFrame signer (lineBytes line)).map .byte⟩
  have hsigned : before.channel.signed =
      w.channel.signed ++ [packetSignatureInput 0 (lineBytes line)] := by
    rw [hsigns.signed, hcounter]
  -- The server has received nothing: the attacker has kept back all that the client sent so far.
  have hpeer : before.channel.receiver = PayloadStream.new serverSign
      (PacketVerify.new signer.publicKeyBytes 0) := hsigns.server.receiver.trans hreceiver
  have hread : (before.channel.receiver.read call).result = .ready (.ok (lineBytes line)) := by
    have hvouches : Vouches call.V signer (lineBytes line) :=
      Verifier.recording_ed25519.mpr (hcounter ▸ List.mem_cons_self)
    have hmatches : Matches signer (PacketVerify.new signer.publicKeyBytes 0) :=
      ⟨rfl, hcounter.symm⟩
    rw [hpeer]
    exact read_payloadFrame hvouches (fits_of_length_le _ (by omega)) (by simp [lineBytes])
      (bounded_new _ _) rfl rfl hmatches (Nat.zero_le _) hlen
  -- The verdict is no forgery: the line was signed under the counter 0, which is the counter of the
  -- first packet again.
  have hunforged : call.V.Ed25519Unforgeable before.channel.sender.packetSign.publicKeyBytes.1
      (· ∈ before.channel.signed) := by
    intro message signature hverdict
    obtain ⟨-, rfl⟩ := Prod.mk.inj (List.mem_singleton.mp (Verifier.recording_ed25519.mp hverdict))
    rw [hsigned]
    exact List.mem_append_right _ List.mem_cons_self
  have hbefore : before.reader = ⟨[], []⟩ := hsigns.server.reader.trans hreader
  have hstep : Step before (before.serverRead call) :=
    .serverRead before (hsigns.server.server.trans hserver) (by rw [hbefore]) call rfl hunforged
  have hafter : before.serverRead call =
      { before with
        channel := before.channel.afterRead call, reader := ⟨lineBytes line, []⟩ } := by
    have hne : (lineBytes line).isEmpty = false := by simp [lineBytes]
    simp only [serverRead, hread, hne, hbefore]
    rfl
  have hscan : Step (before.serverRead call) (before.serverRead call).serverScan :=
    .serverScan _ (by rw [hafter]; exact hsigns.server.server.trans hserver)
      (by rw [hafter]; simp [lineBytes])
  refine ⟨_, .tail (.tail hsigns.run hstep) hscan, ?_⟩
  rw [serverScan_lineBytes hline (by rw [hafter]), hafter]
  exact ⟨congrArg (· ++ [stripCr line]) hsigns.server.commands, hsigns.lines, hsigned⟩

end Showing

/-- Whatever the attacker does to a session of fewer than 2^64 packets, the commands that
the server has run are the first lines of the client, each without one `\r` at its end. -/
theorem commands_prefix_lines {clientKey : C.Ed25519KeyPair} {clientVerify : PacketVerify}
    {serverSign : PacketSign C} {now : Instant} {w : Shell C}
    (hrun : Run (start clientKey clientVerify serverSign now) w)
    (hcount : w.channel.signed.length < 2 ^ 64) : w.commands <+: w.lines.map stripCr := by
  obtain ⟨c, sent, done, h⟩ :=
    (keeps_start clientKey clientVerify serverSign now).run hrun hcount
  obtain ⟨rest, hlines, -⟩ := h.unsigned
  rw [h.commands, hlines]
  exact (h.done_isPrefix.trans (List.prefix_append ..)).map stripCr

/-- A new session of the sample library. -/
def sampleStart : Shell Crypto.sample := start (0 : UInt8) (.sample 1) (.sample 1) 0

theorem ready_sampleStart : sampleStart.Ready := ⟨rfl, bounded_new _ _, rfl⟩

/-- One line from a client to its server. -/
theorem commands_prefix_lines_sample :
    ∃ w, Run sampleStart w ∧ w.commands = [['a']] ∧ w.commands <+: w.lines.map stripCr := by
  obtain ⟨w, hrun, hcommands, hlines, hsigned⟩ :=
    ready_sampleStart.runLine (show '\n' ∉ ['a'] by decide) (by decide) rfl rfl rfl rfl
  refine ⟨w, hrun, hcommands, commands_prefix_lines hrun ?_⟩
  rw [hsigned]
  decide

/-- After 2^64 empty lines the packet of another line has the counter of the first packet. A
server that the attacker shows only that packet runs its line first. -/
theorem not_commands_prefix_lines :
    ¬ ∀ (clientKey : Crypto.sample.Ed25519KeyPair) (clientVerify : PacketVerify)
      (serverSign : PacketSign Crypto.sample) (now : Instant) (w : Shell Crypto.sample),
      Run (start clientKey clientVerify serverSign now) w → w.commands <+: w.lines.map stripCr := by
  intro hall
  -- The number of lines is kept abstract: only that it wraps to zero and is not zero matters.
  obtain ⟨n, hn, hwraps⟩ : ∃ n : ℕ, n ≠ 0 ∧ UInt64.ofNat n = 0 := ⟨2 ^ 64, by decide, by decide⟩
  obtain ⟨before, hrun, hready, hserver, hlines, hsign⟩ := ready_sampleStart.sendEmptyLines n
  have hcounter : before.channel.sender.packetSign.signCounter = 0 := by
    rw [hsign, hwraps]
    rfl
  have hreceiver : before.channel.receiver = PayloadStream.new (PacketSign.sample 1)
      (PacketVerify.new before.channel.sender.packetSign.publicKeyBytes 0) := by
    rw [hserver.receiver, hsign]
    rfl
  obtain ⟨w, hrun', hcommands, hlines', -⟩ :=
    hready.runLine (show '\n' ∉ ['A'] by decide) (by decide)
    hcounter hreceiver hserver.reader hserver.server
  have hprefix := hall _ _ _ _ w (hrun.trans hrun')
  rw [hcommands, hserver.commands, hlines', hlines] at hprefix
  obtain ⟨m, rfl⟩ := Nat.exists_eq_succ_of_ne_zero hn
  simp [List.replicate_succ, sampleStart, start, stripCr] at hprefix

end Axsh.Shell

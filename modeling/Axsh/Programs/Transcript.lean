/-
# The transcript

What the server's stream accepts is the output of the commands, in the order of the commands and
for each in the order it was read, with the status line behind it. The invariant says so for
wherever the handler is suspended (`Serves`), and that nothing is left in the stream while the
handler waits for anything else than the stream.
-/

import Axsh.Programs.Undisturbed
import Axsh.Transport.Genuine
import Mathlib.Data.Nat.Digits.Defs

set_option autoImplicit false

namespace Axsh

open PayloadStream

variable {C : Crypto}

namespace ServerProgram

/-- Everything that was written for the commands, in order. -/
def transcript (s : ServerProgram C) : Bytes :=
  (s.outputs.map Output.written).flatten ++ s.output.written

/-- The packets of that. -/
def packets (s : ServerProgram C) : List Bytes :=
  (s.outputs.map Output.packets).flatten ++ s.output.packets

theorem flatten_packets (s : ServerProgram C) : s.packets.flatten = s.transcript := by
  rw [packets, transcript, List.flatten_append, List.flatten_flatten, List.map_map]
  rfl

/-- What is said of the handler, by what it waits for. -/
def Phase (s : ServerProgram C) : Serving → Prop
  | .nextLine =>
    s.output = .empty ∧ s.commands.length = s.outputs.length ∧ s.endpoint.stream.unsent = []
  | .runCommandLine phase =>
    Running phase s.output ∧ s.commands.length = s.outputs.length + 1 ∧
      phase.Paired ∧ phase.Drained s.endpoint.stream.unsent
  | .returned =>
    s.output = .empty ∧ s.commands.length = s.outputs.length ∨
      s.output.Begun ∧ s.commands.length = s.outputs.length + 1

/-- The stream has signed the packets of the commands and has accepted what is in them, and of
every command but the last that is everything. -/
structure Serves (s : ServerProgram C) : Prop where
  sent : s.endpoint.Sent s.packets
  complete : ∀ o ∈ s.outputs, o.Complete
  phase : s.Phase s.serving

section Serves

variable {s : ServerProgram C}

theorem serves_start {stream : PayloadStream C} (hbounded : stream.Bounded)
    (hsign : stream.packetSign.signCounter = 0) (hunsent : stream.unsent = []) :
    (start stream).Serves where
  sent := ⟨hbounded, hsign, rfl, rfl⟩
  complete := by simp [start]
  phase := ⟨rfl, rfl, hunsent⟩

/-- A line, or the end of the lines. -/
theorem Serves.finish (h : s.Serves) (hserving : s.serving = .nextLine) (bytes : Bytes)
    (reader : LineReader) : (s.finish bytes reader).Serves := by
  have hphase := h.phase
  rw [hserving] at hphase
  obtain ⟨houtput, hcount, hunsent⟩ := hphase
  unfold ServerProgram.finish
  split
  · exact ⟨h.sent, h.complete, .inl ⟨houtput, hcount⟩⟩
  · exact ⟨h.sent, h.complete, .inl ⟨houtput, hcount⟩⟩
  · refine ⟨h.sent, h.complete, ?_, ?_, trivial, hunsent⟩
    · change Running .spawn s.output
      rw [houtput]
      exact .start
    · simp [hcount]

theorem Serves.read (h : s.Serves) (hserving : s.serving = .nextLine) (call : ReadCall) :
    (s.read call).Serves := by
  have hphase := h.phase
  rw [hserving] at hphase
  obtain ⟨houtput, hcount, hunsent⟩ := hphase
  have hsame := (Endpoint.unsent_afterRead h.sent.bounded call).trans hunsent
  -- The handler with what was read, before it looks at it.
  have hnext (reader : LineReader) : Serves
      { s with endpoint := s.endpoint.afterRead call, reader := reader } := by
    refine ⟨h.sent.read call, h.complete, ?_⟩
    change Phase _ s.serving
    rw [hserving]
    exact ⟨houtput, hcount, hsame⟩
  unfold ServerProgram.read
  split
  · exact hnext s.reader
  · exact ⟨h.sent.read call, h.complete, .inl ⟨houtput, hcount⟩⟩
  · split_ifs
    · exact (hnext s.reader).finish hserving _ _
    · exact hnext _

theorem Serves.scan (h : s.Serves) (hserving : s.serving = .nextLine) : s.scan.Serves := by
  unfold ServerProgram.scan
  split_ifs
  · exact h.finish hserving _ _
  · exact ⟨h.sent, h.complete, h.phase⟩

/-- A write that is not pending adds a packet to the output and to what the stream accepted. -/
theorem Serves.write (h : s.Serves) {buf : Bytes} {next : CommandLine}
    (hserving : s.serving = .runCommandLine (.writeAll buf next)) (answers : List WriteResult) :
    (s.write buf next answers).Serves := by
  have hphase := h.phase
  rw [hserving] at hphase
  obtain ⟨hrunning, hcount, hpaired, -⟩ := hphase
  have hwhole := (pollWritePayload_spec h.sent.bounded.write buf answers).2
  refine ⟨?_, h.complete, hrunning.afterWrite hwhole, hcount, ?_, ?_⟩
  · have hsent := h.sent.send (.write buf answers)
    rw [packets, List.append_assoc] at hsent
    exact hsent
  · exact hpaired.afterWrite _
  · exact hpaired.drained_afterWrite _ _

/-- A flush that succeeds has handed over everything. -/
theorem Serves.flush (h : s.Serves) {next : CommandLine}
    (hserving : s.serving = .runCommandLine (.flush next)) (answers : List WriteResult)
    (poll : Poll (Res Unit)) :
    Serves { s with
      endpoint := s.endpoint.afterSend (.flush answers poll)
      serving := .runCommandLine
        (.afterFlush next (s.endpoint.stream.pollFlushPayload answers poll).result) } := by
  have hphase := h.phase
  rw [hserving] at hphase
  obtain ⟨hrunning, hcount, hpaired, -⟩ := hphase
  have hsent := h.sent.send (.flush answers poll)
  rw [show (s.endpoint.stream.send (.flush answers poll)).signed = none from rfl,
    Option.toList_none, List.append_nil] at hsent
  have hdone := (pollDrainThen_spec h.sent.bounded.write answers poll).2
  refine ⟨hsent, h.complete, hrunning.afterFlush _, hcount, ?_, ?_⟩
  · unfold CommandLine.afterFlush
    split
    · exact hpaired
    · trivial
    · exact hpaired
  · unfold CommandLine.afterFlush
    split
    · trivial
    · trivial
    · rename_i hresult
      change next.Drained (s.endpoint.stream.pollFlushPayload answers poll).stream.unsent
      rw [show (s.endpoint.stream.pollFlushPayload answers poll).stream.unsent = [] from
        hdone hresult]
      exact CommandLine.drained_nil next

/-- Every step keeps what is said of the server. -/
theorem Serves.step {ok : Verifier → Prop} {s' : ServerProgram C} (h : s.Serves)
    (hstep : Step ok s s') : s'.Serves := by
  have hphase := h.phase
  cases hstep with
  | read hserving havailable call hroom hV => exact h.read hserving call
  | scan hserving havailable => exact h.scan hserving
  | spawn hserving result =>
    rw [hserving] at hphase
    obtain ⟨hrunning, hcount, -, hunsent⟩ := hphase
    refine ⟨h.sent, h.complete, hrunning.afterSpawn result, hcount, ?_⟩
    match result with
    | .error e => exact ⟨trivial, trivial⟩
    | .ok () => exact ⟨CommandLine.paired_loop _ _, CommandLine.drained_loop hunsent _ _⟩
  | pipe stdoutOpen stderrOpen hserving pipe hopen result hroom =>
    rw [hserving] at hphase
    obtain ⟨hrunning, hcount, -, hunsent⟩ := hphase
    refine ⟨?_, h.complete, hrunning.afterPipe hopen hroom, hcount,
      CommandLine.paired_afterPipe .., CommandLine.drained_afterPipe hunsent ..⟩
    have hpackets : (s.output.afterPipe pipe result).packets = s.output.packets := by
      unfold Output.afterPipe
      split <;> rfl
    rw [packets, hpackets]
    exact h.sent
  | wait hserving result =>
    rw [hserving] at hphase
    obtain ⟨hrunning, hcount, -, hunsent⟩ := hphase
    have hpackets : (s.output.afterWait result).packets = s.output.packets := by
      unfold Output.afterWait
      split <;> rfl
    refine ⟨?_, h.complete, hrunning.afterWait result, hcount, ?_⟩
    · rw [packets, hpackets]
      exact h.sent
    cases result using Poll.resultCases with
    | pending => exact ⟨trivial, hunsent⟩
    | error e | ok status => exact ⟨trivial, trivial⟩
  | write buf next hserving answers => exact h.write hserving answers
  | flush next hserving answers poll => exact h.flush hserving answers poll
  | done hserving =>
    rw [hserving] at hphase
    obtain ⟨hrunning, hcount, -, hunsent⟩ := hphase
    refine ⟨?_, ?_, rfl, ?_, hunsent⟩
    · have hsent := h.sent
      simp only [packets, List.map_append, List.flatten_append] at hsent ⊢
      simpa [Output.empty] using hsent
    · intro o ho
      rcases List.mem_append.mp ho with ho | ho
      · exact h.complete o ho
      · exact List.mem_singleton.mp ho ▸ hrunning.complete
    · simpa using hcount
  | failed e hserving =>
    rw [hserving] at hphase
    obtain ⟨hrunning, hcount, -, -⟩ := hphase
    exact ⟨h.sent, h.complete, .inr ⟨hrunning.begun, hcount⟩⟩

theorem Serves.run {ok : Verifier → Prop} {s' : ServerProgram C} (h : s.Serves)
    (hrun : Run ok s s') : s'.Serves := by
  induction hrun with
  | refl => exact h
  | tail _ hstep ih => exact ih.step hstep

/-- The packets that are signed are those of the commands, and what the stream has accepted is
what there is to say of each command, in order: all of it for every command but the last, and a
beginning for that one. Nothing is left in the stream while the server waits for a command, or for
one to do something. -/
structure Transcribed (s : ServerProgram C) : Prop where
  signed : s.endpoint.signed = s.packets.mapIdx Channel.signatureInput
  accepted : s.endpoint.accepted = s.transcript
  complete : ∀ o ∈ s.outputs, o.Complete
  begun : s.output.Begun
  count : s.output = .empty ∧ s.commands.length = s.outputs.length ∨
    s.commands.length = s.outputs.length + 1
  idle : s.serving = .nextLine → s.endpoint.stream.unsent = []
  waiting : ∀ phase, s.serving = .runCommandLine phase → phase.Drained s.endpoint.stream.unsent

theorem Serves.transcribed (h : s.Serves) : s.Transcribed := by
  have hphase := h.phase
  have haccepted := h.sent.accepted.trans (flatten_packets s)
  have hempty (houtput : s.output = .empty) : s.output.Begun := houtput ▸ Running.start.begun
  match hserving : s.serving with
  | .nextLine =>
    rw [hserving] at hphase
    obtain ⟨houtput, hcount, hunsent⟩ := hphase
    exact ⟨h.sent.signed, haccepted, h.complete, hempty houtput, .inl ⟨houtput, hcount⟩,
      fun _ => hunsent, fun phase hrunning => absurd (hserving.symm.trans hrunning) nofun⟩
  | .runCommandLine phase =>
    rw [hserving] at hphase
    obtain ⟨hrunning, hcount, -, hdrained⟩ := hphase
    refine ⟨h.sent.signed, haccepted, h.complete, hrunning.begun, .inr hcount,
      fun hidle => absurd (hserving.symm.trans hidle) nofun, fun phase' hphase' => ?_⟩
    obtain rfl := Serving.runCommandLine.inj (hserving.symm.trans hphase')
    exact hdrained
  | .returned =>
    rw [hserving] at hphase
    refine ⟨h.sent.signed, haccepted, h.complete, ?_, ?_,
      fun hidle => absurd (hserving.symm.trans hidle) nofun,
      fun phase hrunning => absurd (hserving.symm.trans hrunning) nofun⟩
    · rcases hphase with ⟨houtput, -⟩ | ⟨hbegun, -⟩
      · exact hempty houtput
      · exact hbegun
    · exact hphase.imp id And.right

end Serves

theorem serves_new (keyPair : C.Ed25519KeyPair) (peer : PacketVerify) :
    (start (.new (.new keyPair) peer)).Serves :=
  serves_start (bounded_new _ _) rfl rfl

/-- Whatever the peer, the underlying stream and the commands do, the server's stream signs and
accepts the transcript of its commands. -/
theorem transcribed_run {keyPair : C.Ed25519KeyPair} {peer : PacketVerify} {s : ServerProgram C}
    (hrun : Run (fun _ => True) (start (.new (.new keyPair) peer)) s) : s.Transcribed :=
  ((serves_new keyPair peer).run hrun).transcribed

/-- The read of a sample server that meets a line. -/
def sampleLineRead : ReadCall :=
  ⟨.acceptAll, fun _ => 0, 8192, (payloadFrame (.sample 1) (lineBytes ['a'])).map .byte⟩

/-- A sample server runs a line to the end. -/
theorem exists_sampleRun : ∃ e : Endpoint Crypto.sample,
    Run (fun _ => True) (start (.new (.sample 2) (.sample 1)))
      { endpoint := e, reader := ⟨[], []⟩, serving := .nextLine, commands := [['a']]
        outputs := [ended ((Output.empty.afterPipe .stdout (.ready (.ok [0x62]))).afterSend
          (some [0x62])) ⟨some 0, []⟩]
        output := .empty } := by
  let e : Endpoint Crypto.sample := .new (.new (.sample 2) (.sample 1))
  have hbounded : e.stream.Bounded := bounded_new _ _
  have hread : (e.stream.read sampleLineRead).result = .ready (.ok (lineBytes ['a'])) :=
    read_payloadFrame ((Verifier.correct_acceptAll _).ed25519 _ _)
      (fits_of_length_le _ (by decide)) (by decide) hbounded rfl rfl ⟨rfl, rfl⟩ (by decide)
      (by decide)
  have hheard := (Endpoint.sameKeys_afterRead hbounded sampleLineRead).bounded
  have hunsent : (e.afterRead sampleLineRead).stream.unsent = [] :=
    Endpoint.unsent_afterRead hbounded sampleLineRead
  have hsent := (Endpoint.sameKeys_afterSend hheard (.write [0x62] [])).bounded
  -- The line is read, run and answered, and the answer is flushed.
  have hline : Run (fun _ => True) (start (.new (.sample 2) (.sample 1))) _ :=
    .single (step_read rfl rfl rfl trivial hread)
  have hcommand := hline.trans (run_command rfl ['a'] (by decide) rfl hunsent [0x62] (by decide)
    (by decide))
  have hflush := hcommand.tail (step_flush rfl)
  -- The command ends with exit status 0.
  exact Run.exit hflush rfl (unsent_flushWhole hsent) ⟨some 0, []⟩

theorem transcribed_run_sample : ∃ s : ServerProgram Crypto.sample,
    s.serving = .nextLine ∧ s.commands = [['a']] ∧ s.outputs.length = 1 ∧ s.Transcribed := by
  obtain ⟨e, hrun⟩ := exists_sampleRun
  exact ⟨_, rfl, rfl, rfl, transcribed_run hrun⟩

end ServerProgram

/-! ## The size of the frames -/

theorem length_utf8_le (text : Text) : (utf8 text).length ≤ 4 * text.length := by
  induction text with
  | nil => exact le_rfl
  | cons c text ih =>
    have hchar : (String.utf8EncodeChar c).length ≤ 4 := by
      rw [String.length_utf8EncodeChar]
      exact Char.utf8Size_le_four c
    rw [utf8] at ih
    rw [utf8, List.flatMap_cons, List.length_append, List.length_cons]
    omega

/-- An exit code has ten digits and a sign at most. -/
theorem length_toString_int32_le (code : Int32) : (toString code).toList.length ≤ 11 := by
  have hint : toString code = Int.repr code.toInt := rfl
  have hle := Int32.le_toInt code
  have hlt := Int32.toInt_lt code
  have hnat (n : ℕ) (hn : n < 10 ^ 10) : (Nat.repr n).toList.length ≤ 10 := by
    rw [String.length_toList]
    exact Nat.repr_length n 10 (by decide) hn
  rw [hint]
  match hcode : code.toInt with
  | .ofNat n =>
    rw [hcode] at hlt
    have hdigits := hnat n (by norm_num at hlt ⊢; omega)
    change (Nat.repr n).toList.length ≤ 11
    omega
  | .negSucc n =>
    rw [hcode] at hle
    have hdigits := hnat (n + 1) (by norm_num at hle ⊢; omega)
    have hsign : "-".toList.length = 1 := by decide
    change ("-" ++ Nat.repr (n + 1)).toList.length ≤ 11
    rw [String.toList_append, List.length_append]
    omega

/-- A status line is short if the operating system's text for the status is. -/
theorem length_statusLine_le {status : ExitStatus} (h : status.display.length ≤ 4096) :
    (statusLine status).length ≤ 32700 := by
  have htext : status.text.length ≤ 4106 := by
    unfold ExitStatus.text
    split
    · have hcode := length_toString_int32_le ‹_›
      omega
    · have hfront : "unknown (".toList.length = 9 := by decide
      have hback : ")".toList.length = 1 := by decide
      rw [List.length_append, List.length_append]
      omega
  have hutf8 := length_utf8_le (">>> Exit status ".toList ++ status.text ++ "\n".toList)
  have hfront : ">>> Exit status ".toList.length = 16 := by decide
  have hback : "\n".toList.length = 1 := by decide
  rw [List.length_append, List.length_append] at hutf8
  rw [statusLine]
  omega

/-- What is due for a command is short. -/
theorem Output.Short.length_le {o : Output} {data : Bytes} (h : o.Short) (hdata : data ∈ o.due)
    (hdisplay : ∀ status, o.status = some status → status.display.length ≤ 4096) :
    data.length ≤ 32700 := by
  rcases List.mem_append.mp hdata with hread | hline
  · obtain ⟨read, hmem, rfl⟩ := List.mem_map.mp (List.mem_of_mem_filter hread)
    have hle := h read hmem
    omega
  · obtain ⟨status, hstatus, rfl⟩ := Option.map_eq_some_iff.mp (Option.mem_toList.mp hline)
    exact length_statusLine_le (hdisplay status hstatus)

namespace ServerProgram

/-- Whatever the commands print, every frame of the server is one that its client's reader takes:
no read of a pipe fills more than a packet, and the status line is short. -/
theorem fits_run {keyPair : C.Ed25519KeyPair} {peer : PacketVerify} {s : ServerProgram C}
    (hrun : Run (fun _ => True) (start (.new (.new keyPair) peer)) s)
    (hdisplay : ∀ o, o ∈ s.outputs ∨ o = s.output → ∀ status, o.status = some status →
      status.display.length ≤ 4096) (signer : PacketSign C) :
    ∀ data ∈ s.packets, Fits signer data := by
  have h := ((serves_new keyPair peer).run hrun).transcribed
  intro data hdata
  refine fits_of_length_le signer ?_
  rcases List.mem_append.mp hdata with hdata | hdata
  · obtain ⟨packets, hpackets, hdata⟩ := List.mem_flatten.mp hdata
    obtain ⟨o, ho, rfl⟩ := List.mem_map.mp hpackets
    have hcomplete := h.complete o ho
    exact hcomplete.short.length_le (hcomplete.packets ▸ hdata) (hdisplay o (.inl ho))
  · exact h.begun.short.length_le (h.begun.packets.subset hdata) (hdisplay s.output (.inr rfl))

theorem fits_run_sample : ∃ s : ServerProgram Crypto.sample,
    s.packets = [[0x62], statusLine ⟨some 0, []⟩] ∧
      ∀ data ∈ s.packets, Fits (PacketSign.sample 2) data := by
  obtain ⟨e, hrun⟩ := exists_sampleRun
  refine ⟨_, rfl, fits_run hrun ?_ (.sample 2)⟩
  rintro o (ho | rfl) status hstatus
  · obtain rfl := List.mem_singleton.mp ho
    obtain rfl := Option.some.inj hstatus
    exact Nat.zero_le _
  · cases hstatus

end ServerProgram

end Axsh

/-
# The two programs

What `axsh` and `axshd` do with an established stream: the main loop of the client, and
`handle_connection` of the server with `run_command_line` in it. Each is a machine of its own
that knows nothing of the other. The steps take the verdicts on signatures from a set `ok`, and
whoever puts two programs together says which verdicts these are. Everything else that a program
meets (the answers of the underlying stream, `stdin`, the pipes of the commands) is arbitrary.
-/

import Axsh.CommandLine
import Axsh.Commands

set_option autoImplicit false

namespace Axsh

open PayloadStream

variable {C : Crypto}

/-! ## Endpoints -/

/-- A payload stream, with the inputs that were signed with its packet key, the bytes its writes
accepted and the bytes its reads delivered. -/
structure Endpoint (C : Crypto) where
  stream : PayloadStream C
  signed : List Bytes
  accepted : Bytes
  delivered : Bytes

namespace Endpoint

/-- An endpoint whose stream nobody has used. -/
def new (stream : PayloadStream C) : Endpoint C := ⟨stream, [], [], []⟩

/-- The public key of its packet key. -/
def publicKey (e : Endpoint C) : Fixed ed25519PublicKeyLen := e.stream.packetSign.publicKeyBytes

/-- The key it verifies packets with. -/
def peerKey (e : Endpoint C) : Fixed ed25519PublicKeyLen := e.stream.peerPacketVerify.publicKey

/-- The endpoint after a sending call. -/
def afterSend (e : Endpoint C) (call : SendCall) : Endpoint C :=
  let sent := e.stream.send call
  let input := packetSignatureInput e.stream.packetSign.signCounter
  { e with
    stream := sent.stream
    signed := e.signed ++ (sent.signed.map input).toList
    accepted := e.accepted ++ sent.accepted }

/-- The endpoint after a read call. -/
def afterRead (e : Endpoint C) (call : ReadCall) : Endpoint C :=
  let read := e.stream.read call
  { e with stream := read.stream, delivered := e.delivered ++ deliveredBy read.result }

/-- The channel from one endpoint to another. -/
def channel (sender receiver : Endpoint C) : Channel C where
  sender := sender.stream
  receiver := receiver.stream
  signed := sender.signed
  accepted := sender.accepted
  delivered := receiver.delivered

/-- The two endpoints have the same keys, and the offsets of both lie within their buffers. -/
structure SameKeys (e next : Endpoint C) : Prop where
  bounded : next.stream.Bounded
  publicKey : next.publicKey = e.publicKey
  peerKey : next.peerKey = e.peerKey

/-- A sending call signs with the packet key, and leaves the verifier. -/
theorem sameKeys_afterSend {e : Endpoint C} (h : e.stream.Bounded) (call : SendCall) :
    e.SameKeys (e.afterSend call) := by
  have hsends := (send_spec h call).1
  refine ⟨hsends.bounded h, ?_, congrArg PacketVerify.publicKey hsends.sameRead.peerPacketVerify⟩
  match hsigned : (e.stream.send call).signed with
  | none =>
    rw [hsigned] at hsends
    exact congrArg PacketSign.publicKeyBytes (Drains.packetSign hsends)
  | some data =>
    rw [hsigned] at hsends
    exact (congrArg PacketSign.publicKeyBytes (Queues.packetSign hsends) :)

/-- A read moves the verifier on, and its key stays. -/
theorem sameKeys_afterRead {e : Endpoint C} (h : e.stream.Bounded) (call : ReadCall) :
    e.SameKeys (e.afterRead call) := by
  obtain ⟨hsame, hbounded⟩ := read_sameWrite h call
  refine ⟨hbounded, congrArg PacketSign.publicKeyBytes hsame.packetSign, ?_⟩
  have hrule := pollReadPayload_rule call.V
    (fun stream _ => stream.peerPacketVerify.publicKey = e.peerKey)
    (fun _ _ _ hkey => hkey)
    (fun stream _ frame data now later hkey _ _ => by
      rw [received_peerPacketVerify, PacketVerify.accepted_publicKey, hkey])
    (fun stream next _ out hkey hnext _ => by rw [hnext, hkey])
    e.stream [] rfl h.read call.clock call.remaining call.answers
  exact hrule.1

theorem sameRead_afterSend {e : Endpoint C} (h : e.stream.Bounded) (call : SendCall) :
    SameRead e.stream (e.afterSend call).stream := (send_spec h call).1.sameRead

theorem sameWrite_afterRead {e : Endpoint C} (h : e.stream.Bounded) (call : ReadCall) :
    SameWrite e.stream (e.afterRead call).stream := (read_sameWrite h call).1

/-- A read leaves what is unsent. -/
theorem unsent_afterRead {e : Endpoint C} (h : e.stream.Bounded) (call : ReadCall) :
    (e.afterRead call).stream.unsent = e.stream.unsent := by
  have hsame := sameWrite_afterRead h call
  rw [unsent, unsent, hsame.writeBuffer, hsame.writeOffset]

/-- The packets that were signed with the endpoint's key are these, each under its number, and
what the writes accepted is what is in them. -/
structure Sent (e : Endpoint C) (packets : List Bytes) : Prop where
  bounded : e.stream.Bounded
  signCounter : e.stream.packetSign.signCounter = UInt64.ofNat packets.length
  signed : e.signed = packets.mapIdx Channel.signatureInput
  accepted : e.accepted = packets.flatten

/-- A sending call adds the packet that it signs, if it does. -/
theorem Sent.send {e : Endpoint C} {packets : List Bytes} (h : e.Sent packets) (call : SendCall) :
    (e.afterSend call).Sent (packets ++ (e.stream.send call).signed.toList) := by
  obtain ⟨hsends, haccepted⟩ := send_spec h.bounded call
  have hbounded := hsends.bounded h.bounded
  match hsigned : (e.stream.send call).signed with
  | none =>
    rw [hsigned] at hsends haccepted
    have hsign := congrArg PacketSign.signCounter (Drains.packetSign hsends)
    refine ⟨hbounded, ?_, ?_, ?_⟩
    · exact hsign.trans (by simpa using h.signCounter)
    · simp [afterSend, hsigned, h.signed]
    · simp [afterSend, haccepted, h.accepted]
  | some data =>
    rw [hsigned] at hsends haccepted
    have hsign := congrArg PacketSign.signCounter (Queues.packetSign hsends)
    refine ⟨hbounded, ?_, ?_, ?_⟩
    · rw [Option.toList_some, List.length_append, List.length_singleton, UInt64.ofNat_add,
        ← h.signCounter]
      exact hsign
    · simp [afterSend, hsigned, h.signed, h.signCounter, Channel.signatureInput]
    · simp [afterSend, haccepted, h.accepted]

theorem Sent.read {e : Endpoint C} {packets : List Bytes} (h : e.Sent packets) (call : ReadCall) :
    (e.afterRead call).Sent packets := by
  have hsame := sameWrite_afterRead h.bounded call
  exact ⟨(sameKeys_afterRead h.bounded call).bounded,
    (congrArg PacketSign.signCounter hsame.packetSign).trans h.signCounter, h.signed, h.accepted⟩

/-- A call takes no signature back. -/
theorem length_signed_le_afterSend (e : Endpoint C) (call : SendCall) :
    e.signed.length ≤ (e.afterSend call).signed.length :=
  List.length_append ▸ Nat.le_add_right _ _

end Endpoint

/-! ## The client -/

/-- The main loop of `axsh`, with the lines it got from `stdin`. -/
structure ClientProgram (C : Crypto) where
  endpoint : Endpoint C
  loop : MainLoop
  lines : List Text

namespace ClientProgram

/-- The loop is entered. -/
def start (stream : PayloadStream C) : ClientProgram C := ⟨.new stream, .select true, []⟩

/-- The steps of the main loop. -/
inductive Step (ok : Verifier → Prop) (c : ClientProgram C) : ClientProgram C → Prop
  | stdinLine (line : Text) (hloop : c.loop = .select true) (hline : '\n' ∉ line) :
      Step ok c { c with loop := .writeAll (lineBytes line), lines := c.lines ++ [line] }
  | stdinEnd (hloop : c.loop = .select true) : Step ok c { c with loop := .shutdown false }
  | stdinError (hloop : c.loop = .select true) : Step ok c { c with loop := .returned }
  | read (stdinOpen : Bool) (hloop : c.loop = .select stdinOpen) (call : ReadCall)
      (hroom : call.remaining = 1024) (hV : ok call.V) :
      Step ok c { c with
        endpoint := c.endpoint.afterRead call
        loop := .afterRead stdinOpen (c.endpoint.stream.read call).result }
  | write (buf : Bytes) (hloop : c.loop = .writeAll buf) (answers : List WriteResult) :
      Step ok c { c with
        endpoint := c.endpoint.afterSend (.write buf answers)
        loop := .afterWrite buf (c.endpoint.stream.pollWritePayload buf answers).result }
  | shutdown (exit : Bool) (hloop : c.loop = .shutdown exit) (answers : List WriteResult)
      (poll : Poll (Res Unit)) :
      Step ok c { c with
        endpoint := c.endpoint.afterSend (.shutdown answers poll)
        loop := .afterShutdown exit (c.endpoint.stream.pollShutdownPayload answers poll).result }
  | flush (stdinOpen exit : Bool) (hloop : c.loop = .flush stdinOpen exit)
      (answers : List WriteResult) (poll : Poll (Res Unit)) :
      Step ok c { c with
        endpoint := c.endpoint.afterSend (.flush answers poll)
        loop := .afterFlush stdinOpen exit
          (c.endpoint.stream.pollFlushPayload answers poll).result }

variable {ok : Verifier → Prop} {c c' : ClientProgram C}

/-- A step stays one when more verdicts are allowed. -/
theorem Step.mono {ok' : Verifier → Prop} (hstep : Step ok c c') (h : ∀ V, ok V → ok' V) :
    Step ok' c c' := by
  cases hstep with
  | stdinLine line hloop hline => exact .stdinLine line hloop hline
  | stdinEnd hloop => exact .stdinEnd hloop
  | stdinError hloop => exact .stdinError hloop
  | read stdinOpen hloop call hroom hV => exact .read stdinOpen hloop call hroom (h _ hV)
  | write buf hloop answers => exact .write buf hloop answers
  | shutdown exit hloop answers poll => exact .shutdown exit hloop answers poll
  | flush stdinOpen exit hloop answers poll => exact .flush stdinOpen exit hloop answers poll

theorem Step.sameKeys (hstep : Step ok c c') (h : c.endpoint.stream.Bounded) :
    c.endpoint.SameKeys c'.endpoint := by
  cases hstep with
  | stdinLine | stdinEnd | stdinError => exact ⟨h, rfl, rfl⟩
  | read stdinOpen hloop call hroom hV => exact Endpoint.sameKeys_afterRead h call
  | write | shutdown | flush => exact Endpoint.sameKeys_afterSend h _

theorem Step.length_signed_le (hstep : Step ok c c') :
    c.endpoint.signed.length ≤ c'.endpoint.signed.length := by
  cases hstep with
  | stdinLine | stdinEnd | stdinError | read => exact le_rfl
  | write | shutdown | flush => exact Endpoint.length_signed_le_afterSend _ _

end ClientProgram

/-! ## The server -/

/-- What `handle_connection` waits for. -/
inductive Serving
  | nextLine
  | runCommandLine (phase : CommandLine)
  | returned

/-- The handler, without where it is in `run_command_line`. -/
def Serving.handler : Serving → Handler
  | .nextLine => .nextLine
  | .runCommandLine _ => .runCommandLine
  | .returned => .returned

/-- `handle_connection`, with its line reader, the commands it got, what was written of those
that are done, and what was written of the one that is not. -/
structure ServerProgram (C : Crypto) where
  endpoint : Endpoint C
  reader : LineReader
  serving : Serving
  commands : List Text
  outputs : List Output
  output : Output

namespace ServerProgram

/-- The loop of the handler is entered. -/
def start (stream : PayloadStream C) : ServerProgram C where
  endpoint := .new stream
  reader := ⟨[], []⟩
  serving := .nextLine
  commands := []
  outputs := []
  output := .empty

/-- The handler has the bytes of a line, and goes on with `reader`. -/
def finish (s : ServerProgram C) (bytes : Bytes) (reader : LineReader) : ServerProgram C :=
  match finishLine bytes with
  | .error _ | .ok none => { s with reader, serving := .returned }
  | .ok (some command) =>
    { s with reader, serving := .runCommandLine .spawn, commands := s.commands ++ [command] }

/-- The line reader has no bytes, and reads some. -/
def read (s : ServerProgram C) (call : ReadCall) : ServerProgram C :=
  let next := { s with endpoint := s.endpoint.afterRead call }
  match (s.endpoint.stream.read call).result with
  | .pending => next
  | .ready (.error _) => { next with serving := .returned }
  | .ready (.ok data) =>
    if data.isEmpty then next.finish s.reader.line ⟨[], []⟩
    else { next with reader := ⟨data, s.reader.line⟩ }

/-- The line reader has bytes, and looks for a newline in them. -/
def scan (s : ServerProgram C) : ServerProgram C :=
  if 0x0a ∈ s.reader.available then
    let front := s.reader.available.takeWhile (· ≠ 0x0a)
    let rest := (s.reader.available.dropWhile (· ≠ 0x0a)).tail
    s.finish (s.reader.line ++ front ++ [0x0a]) ⟨rest, []⟩
  else { s with reader := ⟨[], s.reader.line ++ s.reader.available⟩ }

/-- A poll of `write_all` in `run_command_line`. -/
def write (s : ServerProgram C) (buf : Bytes) (next : CommandLine) (answers : List WriteResult) :
    ServerProgram C :=
  let result := (s.endpoint.stream.pollWritePayload buf answers).result
  { s with
    endpoint := s.endpoint.afterSend (.write buf answers)
    serving := .runCommandLine (.afterWrite buf next result)
    output := s.output.afterSend (signedByWrite buf result) }

/-- The steps of the handler. -/
inductive Step (ok : Verifier → Prop) (s : ServerProgram C) : ServerProgram C → Prop
  | read (hserving : s.serving = .nextLine) (havailable : s.reader.available = [])
      (call : ReadCall) (hroom : call.remaining = 8192) (hV : ok call.V) : Step ok s (s.read call)
  | scan (hserving : s.serving = .nextLine) (havailable : s.reader.available ≠ []) :
      Step ok s s.scan
  | spawn (hserving : s.serving = .runCommandLine .spawn) (result : Res Unit) :
      Step ok s { s with serving := .runCommandLine (.afterSpawn result) }
  | pipe (stdoutOpen stderrOpen : Bool)
      (hserving : s.serving = .runCommandLine (.select stdoutOpen stderrOpen)) (pipe : PipeEnd)
      (hopen : CommandLine.IsOpen stdoutOpen stderrOpen pipe) (result : Poll (Res Bytes))
      (hroom : ∀ data, result = .ready (.ok data) → data.length ≤ 4096) :
      Step ok s { s with
        serving := .runCommandLine (.afterPipe stdoutOpen stderrOpen pipe result)
        output := s.output.afterPipe pipe result }
  | wait (hserving : s.serving = .runCommandLine .wait) (result : Poll (Res ExitStatus)) :
      Step ok s { s with
        serving := .runCommandLine (.afterWait result), output := s.output.afterWait result }
  | write (buf : Bytes) (next : CommandLine)
      (hserving : s.serving = .runCommandLine (.writeAll buf next)) (answers : List WriteResult) :
      Step ok s (s.write buf next answers)
  | flush (next : CommandLine) (hserving : s.serving = .runCommandLine (.flush next))
      (answers : List WriteResult) (poll : Poll (Res Unit)) :
      Step ok s { s with
        endpoint := s.endpoint.afterSend (.flush answers poll)
        serving := .runCommandLine
          (.afterFlush next (s.endpoint.stream.pollFlushPayload answers poll).result) }
  /-- `run_command_line` returns, and the loop goes on. -/
  | done (hserving : s.serving = .runCommandLine (.returned (.ok ()))) :
      Step ok s { s with
        serving := .nextLine, outputs := s.outputs ++ [s.output], output := .empty }
  /-- `run_command_line` fails, and so does the handler. -/
  | failed (e : Failure) (hserving : s.serving = .runCommandLine (.returned (.error e))) :
      Step ok s { s with serving := .returned }

abbrev Run (ok : Verifier → Prop) : ServerProgram C → ServerProgram C → Prop :=
  Relation.ReflTransGen (Step ok)

theorem finish_endpoint (s : ServerProgram C) (bytes : Bytes) (reader : LineReader) :
    (s.finish bytes reader).endpoint = s.endpoint := by
  unfold finish
  split <;> rfl

theorem read_endpoint (s : ServerProgram C) (call : ReadCall) :
    (s.read call).endpoint = s.endpoint.afterRead call := by
  unfold read
  split
  · rfl
  · rfl
  · split_ifs
    · exact finish_endpoint _ _ _
    · rfl

theorem scan_endpoint (s : ServerProgram C) : s.scan.endpoint = s.endpoint := by
  unfold scan
  split_ifs
  · exact finish_endpoint _ _ _
  · rfl

theorem Step.mono {ok ok' : Verifier → Prop} {s s' : ServerProgram C} (hstep : Step ok s s')
    (h : ∀ V, ok V → ok' V) : Step ok' s s' := by
  cases hstep with
  | read hserving havailable call hroom hV =>
    exact .read hserving havailable call hroom (h _ hV)
  | scan hserving havailable => exact .scan hserving havailable
  | spawn hserving result => exact .spawn hserving result
  | pipe stdoutOpen stderrOpen hserving pipe hopen result hroom =>
    exact .pipe stdoutOpen stderrOpen hserving pipe hopen result hroom
  | wait hserving result => exact .wait hserving result
  | write buf next hserving answers => exact .write buf next hserving answers
  | flush next hserving answers poll => exact .flush next hserving answers poll
  | done hserving => exact .done hserving
  | failed e hserving => exact .failed e hserving

theorem Step.sameKeys {ok : Verifier → Prop} {s s' : ServerProgram C} (hstep : Step ok s s')
    (h : s.endpoint.stream.Bounded) : s.endpoint.SameKeys s'.endpoint := by
  cases hstep with
  | read hserving havailable call hroom hV =>
    rw [read_endpoint]
    exact Endpoint.sameKeys_afterRead h call
  | scan =>
    rw [scan_endpoint]
    exact ⟨h, rfl, rfl⟩
  | spawn | pipe | wait | done | failed => exact ⟨h, rfl, rfl⟩
  | write | flush => exact Endpoint.sameKeys_afterSend h _

theorem Step.length_signed_le {ok : Verifier → Prop} {s s' : ServerProgram C}
    (hstep : Step ok s s') : s.endpoint.signed.length ≤ s'.endpoint.signed.length := by
  cases hstep with
  | read =>
    rw [read_endpoint]
    exact le_rfl
  | scan =>
    rw [scan_endpoint]
  | spawn | pipe | wait | done | failed => exact le_rfl
  | write | flush => exact Endpoint.length_signed_le_afterSend _ _

end ServerProgram

end Axsh

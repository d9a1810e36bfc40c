/-
# What a server does, in order

The trace of a server session is its hello, some number of answered requests, and
then nothing, a message that it refuses, or a client hello that it admits with the
signature that completes the handshake.
-/

import Axsh.Server
import Axsh.Handshake.Drive
import Axsh.Statement

set_option autoImplicit false

namespace Axsh

abbrev ServerSession (C : Crypto) := Session (ServerPending C) (ServerStream C)

namespace ServerConfig

variable {C : Crypto} (cfg : ServerConfig C)

/-- A server session before its first poll. -/
def session : ServerSession C := .begin cfg.start

/-- The packet key and the challenge value of a session. -/
structure Started (packetSign : PacketSign C) (unique : UInt64) : Prop where
  newPacketSign : cfg.newPacketSign = .ok packetSign
  randomU64 : cfg.randomU64 = .ok unique

theorem Started.eq {cfg : ServerConfig C} {packetSign packetSign' : PacketSign C}
    {unique unique' : UInt64}
    (h : cfg.Started packetSign unique) (h' : cfg.Started packetSign' unique') :
    packetSign = packetSign' ∧ unique = unique' :=
  ⟨Except.ok.inj (h.newPacketSign.symm.trans h'.newPacketSign),
    Except.ok.inj (h.randomU64.symm.trans h'.randomU64)⟩

/-- The script up to a round of the loop: the hello, and `n` answered requests. -/
def loopEvents (hello : ServerHello) (n : ℕ) : List Event :=
  .wrote (helloWire hello) ::
    (List.replicate n [.received [packetTypeRequestServerPubkey],
      .wrote (packetTypeServerPubkey :: cfg.connSign.publicKeyBytes)]).flatten

theorem loopEvents_succ (hello : ServerHello) (n : ℕ) :
    cfg.loopEvents hello (n + 1) = cfg.loopEvents hello n ++
      [.received [packetTypeRequestServerPubkey],
        .wrote (packetTypeServerPubkey :: cfg.connSign.publicKeyBytes)] := by
  rw [loopEvents, List.replicate_succ', List.flatten_append, List.flatten_singleton,
    ← List.cons_append, loopEvents]

/-- The events of a server's acceptance of a client hello. -/
def acceptEvents (pending : ServerPending C) (wire : Bytes) : List Event :=
  [.received wire, .signed (pending.serverHelloWire ++ wire),
    .wrote (cfg.completeWire pending wire)]

/-- A server that has accepted a client hello, under verdicts that were allowed. -/
structure Accepted (verdicts : Verifier → Prop) (packetSign : PacketSign C) (unique : UInt64)
    (hello : ClientHello) (publicKey signature : Bytes) : Prop where
  started : cfg.Started packetSign unique
  admits : ∃ V, verdicts V ∧ cfg.Admits V unique hello publicKey signature

/-- The fronts of the script at which a session may fail. -/
inductive Script (verdicts : Verifier → Prop) : List Event → Prop
  | nil : Script verdicts []
  | looping {packetSign : PacketSign C} {unique : UInt64} (h : cfg.Started packetSign unique)
      (n : ℕ) : Script verdicts (cfg.loopEvents (cfg.serverHello packetSign unique) n)
  | refused {packetSign : PacketSign C} {unique : UInt64} (h : cfg.Started packetSign unique)
      (n : ℕ) (wire : Bytes) :
      Script verdicts (cfg.loopEvents (cfg.serverHello packetSign unique) n ++ [.received wire])
  | accepted {packetSign : PacketSign C} {unique : UInt64} {hello : ClientHello}
      {publicKey signature : Bytes}
      (h : cfg.Accepted verdicts packetSign unique hello publicKey signature) (n : ℕ) :
      Script verdicts (cfg.loopEvents (cfg.serverHello packetSign unique) n ++
        cfg.acceptEvents (cfg.pendingAfter packetSign unique) (signedHelloWire signature hello))

/-- What is known at the top of the loop. -/
def AtAwait (pending : ServerPending C) (trace : List Event) : Prop :=
  ∃ packetSign unique n, cfg.Started packetSign unique ∧
    pending = cfg.pendingAfter packetSign unique ∧
    trace = cfg.loopEvents (cfg.serverHello packetSign unique) n

/-- What is known of an established connection. -/
def AtDone (verdicts : Verifier → Prop) (stream : ServerStream C) (trace : List Event) : Prop :=
  ∃ now packetSign unique hello publicKey signature n,
    cfg.Accepted verdicts packetSign unique hello publicKey signature ∧
      stream = established now (cfg.pendingAfter packetSign unique) hello ∧
      trace = cfg.loopEvents (cfg.serverHello packetSign unique) n ++
        cfg.acceptEvents (cfg.pendingAfter packetSign unique) (signedHelloWire signature hello)

variable {cfg} {verdicts : Verifier → Prop}

theorem AtAwait.script {pending : ServerPending C} {trace : List Event}
    (h : cfg.AtAwait pending trace) : cfg.Script verdicts trace := by
  obtain ⟨packetSign, unique, n, hstarted, -, rfl⟩ := h
  exact .looping hstarted n

theorem AtDone.script {stream : ServerStream C} {trace : List Event}
    (h : cfg.AtDone verdicts stream trace) : cfg.Script verdicts trace := by
  obtain ⟨now, packetSign, unique, hello, publicKey, signature, n, haccepted, -, rfl⟩ := h
  exact .accepted haccepted n

/-! ## More verdicts -/

section Mono

variable {verdicts' : Verifier → Prop}

theorem Accepted.mono {packetSign : PacketSign C} {unique : UInt64} {hello : ClientHello}
    {publicKey signature : Bytes}
    (h : cfg.Accepted verdicts packetSign unique hello publicKey signature)
    (hle : ∀ V, verdicts V → verdicts' V) :
    cfg.Accepted verdicts' packetSign unique hello publicKey signature := by
  obtain ⟨V, hV, hadmits⟩ := h.admits
  exact ⟨h.started, V, hle V hV, hadmits⟩

theorem AtDone.mono {stream : ServerStream C} {trace : List Event}
    (h : cfg.AtDone verdicts stream trace) (hle : ∀ V, verdicts V → verdicts' V) :
    cfg.AtDone verdicts' stream trace := by
  obtain ⟨now, packetSign, unique, hello, publicKey, signature, n, haccepted, hstream, htrace⟩ := h
  exact ⟨now, packetSign, unique, hello, publicKey, signature, n, haccepted.mono hle, hstream,
    htrace⟩

theorem Script.mono {trace : List Event} (h : cfg.Script verdicts trace)
    (hle : ∀ V, verdicts V → verdicts' V) : cfg.Script verdicts' trace := by
  cases h with
  | nil => exact .nil
  | looping hstarted n => exact .looping hstarted n
  | refused hstarted n wire => exact .refused hstarted n wire
  | accepted haccepted n => exact .accepted (haccepted.mono hle) n

end Mono

/-! ## The script is kept -/

/-- A server session keeps to its script. -/
abbrev Follows (cfg : ServerConfig C) (verdicts : Verifier → Prop) (task : ServerTask C)
    (trace : List Event) : Prop :=
  task.Holds cfg.AtAwait (cfg.AtDone verdicts) (cfg.Script verdicts) trace

/-- The first steps of a server begin its script. -/
theorem start_follows (cfg : ServerConfig C) :
    cfg.Follows verdicts (Task.ofAct cfg.start).task cfg.start.events := by
  rcases cfg.start_eq with ⟨⟨e, hresult⟩, hevents⟩ | ⟨packetSign, unique, hkey, hunique, hrun⟩
  · rw [Task.ofAct, hresult, hevents]
    exact .nil
  · rw [hrun]
    exact ⟨packetSign, unique, 0, ⟨hkey, hunique⟩, rfl, rfl⟩

/-- Each round of the loop keeps a server to its script. -/
theorem resume_follows (cfg : ServerConfig C) (moment : Moment) (hV : verdicts moment.V)
    (pending : ServerPending C) (frame : Bytes) (trace : List Event)
    (h : cfg.AtAwait pending trace) :
    cfg.Follows verdicts (Task.ofAct (cfg.resume moment pending frame)).task
      (trace ++ (cfg.resume moment pending frame).events) := by
  obtain ⟨packetSign, unique, n, hstarted, rfl, rfl⟩ := h
  -- A request leads back to the same await point, one round later.
  rcases cfg.resume_eq moment (cfg.pendingAfter packetSign unique) frame with
    (⟨⟨e, hresult⟩, hevents⟩ | ⟨wire, ⟨e, hresult⟩, hevents⟩) | hdecode |
      ⟨hello, publicKey, signature, hdecode, hadmits⟩
  · rw [Task.ofAct, hresult, hevents, List.append_nil]
    exact .looping hstarted n
  · rw [Task.ofAct, hresult, hevents]
    exact .refused hstarted n wire
  · rw [resume_of_request hdecode]
    exact ⟨packetSign, unique, n + 1, hstarted, rfl, (cfg.loopEvents_succ _ n).symm⟩
  · rw [resume_of_admits hdecode hadmits]
    exact ⟨moment.now, packetSign, unique, hello, publicKey, signature, n,
      ⟨hstarted, moment.V, hV, hadmits⟩, rfl, rfl⟩

/-- Every poll keeps a server session to its script. -/
theorem Follows.poll {task : ServerTask C} {trace : List Event}
    (h : cfg.Follows verdicts task trace) (moment : Moment) (hV : verdicts moment.V)
    (answer : Answer) :
    cfg.Follows verdicts (task.poll (cfg.resume moment) answer).task
      (trace ++ (task.poll (cfg.resume moment) answer).events) :=
  Task.Holds.poll (fun _ _ hk => hk.script) (fun _ _ hd => hd.script)
    (cfg.resume_follows moment hV) h answer

theorem Follows.mono {verdicts' : Verifier → Prop} {task : ServerTask C} {trace : List Event}
    (h : cfg.Follows verdicts task trace) (hle : ∀ V, verdicts V → verdicts' V) :
    cfg.Follows verdicts' task trace :=
  Task.Holds.mono (fun _ hk => hk) (fun _ hd => hd.mono hle) (fun hf => hf.mono hle) h

theorem Follows.script {task : ServerTask C} {trace : List Event}
    (h : cfg.Follows verdicts task trace) : cfg.Script verdicts trace :=
  h.fails (fun _ hk => hk.script) (fun _ hd => hd.script)

/-! ## What a server signs -/

theorem notMem_loopEvents {hello : ServerHello} {n : ℕ} {message : Bytes} :
    .signed message ∉ cfg.loopEvents hello n := by
  rw [loopEvents, List.mem_cons, List.mem_flatten]
  rintro (h | ⟨round, hround, hmem⟩)
  · cases h
  · rw [List.eq_of_mem_replicate hround] at hmem
    simp at hmem

/-- The message that a server signs when it accepts is that of the two hellos. -/
theorem signed_of_mem_accept {hello : ServerHello} {n : ℕ} {pending : ServerPending C}
    {wire message : Bytes}
    (hmem : .signed message ∈ cfg.loopEvents hello n ++ cfg.acceptEvents pending wire) :
    message = pending.serverHelloWire ++ wire := by
  rcases List.mem_append.mp hmem with hloop | haccept
  · exact absurd hloop notMem_loopEvents
  · simpa [acceptEvents] using haccept

/-- A server that has signed a message has accepted a client hello, and the message
is its own hello with that one. -/
theorem Script.signed_of_mem {trace : List Event} {message : Bytes}
    (h : cfg.Script verdicts trace) (hmem : .signed message ∈ trace) :
    ∃ packetSign unique hello publicKey signature n,
      cfg.Accepted verdicts packetSign unique hello publicKey signature ∧
      message = helloWire (cfg.serverHello packetSign unique) ++ signedHelloWire signature hello ∧
      trace = cfg.loopEvents (cfg.serverHello packetSign unique) n ++
        cfg.acceptEvents (cfg.pendingAfter packetSign unique)
          (signedHelloWire signature hello) := by
  cases h with
  | nil => simp at hmem
  | looping hstarted n => exact absurd hmem notMem_loopEvents
  | refused hstarted n wire =>
    rcases List.mem_append.mp hmem with hloop | hreceived
    · exact absurd hloop notMem_loopEvents
    · simp at hreceived
  | accepted haccepted n =>
    exact ⟨_, _, _, _, _, n, haccepted, signed_of_mem_accept hmem, rfl⟩

/-- The client hello that a server accepts is one that `deserialize` accepts in its mode. -/
theorem Accepted.acceptedHello {packetSign : PacketSign C} {unique : UInt64} {hello : ClientHello}
    {publicKey signature : Bytes}
    (h : cfg.Accepted verdicts packetSign unique hello publicKey signature) :
    AcceptedHello (signedHelloWire signature hello) cfg.connSign.quantumInsecure hello := by
  obtain ⟨V, -, hadmits⟩ := h.admits
  exact acceptedHello_iff.mpr ⟨signature, hadmits.accepts.length, rfl⟩

/-- A server that has signed for a client hello ends in the connection with that
client, unless it fails to send its signature. -/
theorem Follows.ends {task : ServerTask C} {trace : List Event} {packetSign : PacketSign C}
    {unique : UInt64} {hello : ClientHello} {publicKey signature : Bytes}
    (h : cfg.Follows verdicts task trace)
    (haccepted : cfg.Accepted verdicts packetSign unique hello publicKey signature)
    (hmem : .signed (helloWire (cfg.serverHello packetSign unique) ++
      signedHelloWire signature hello) ∈ trace) :
    task.Ends fun stream =>
      ∃ now, stream = established now (cfg.pendingAfter packetSign unique) hello := by
  refine Task.Holds.ends ?_ ?_ h
  · rintro pending ⟨_, _, n, -, -, rfl⟩
    exact absurd hmem notMem_loopEvents
  · rintro stream ⟨now, packetSign', unique', hello', publicKey', signature', n, haccepted', rfl,
      rfl⟩
    obtain ⟨rfl, rfl⟩ := haccepted.started.eq haccepted'.started
    have hwire := List.append_cancel_left (signed_of_mem_accept hmem)
    obtain ⟨rfl, rfl⟩ := signedHelloWire_inj hwire
    exact ⟨now, rfl⟩

/-! ## The run of a server with an authorized client -/

/-- A server sends its hello, and waits. -/
theorem afterAll_hello {packetSign : PacketSign C} {unique : UInt64}
    (h : cfg.Started packetSign unique) (moment : Moment) :
    cfg.session.afterAll (cfg.resume moment)
        (sendAnswers (helloWire (cfg.serverHello packetSign unique))) =
      ⟨.readFrame (cfg.pendingAfter packetSign unique),
        cfg.loopEvents (cfg.serverHello packetSign unique) 0,
        Hdlc.encode (helloWire (cfg.serverHello packetSign unique))⟩ := by
  have hsession : cfg.session = ⟨.send (helloWire (cfg.serverHello packetSign unique))
      (.readFrame (cfg.pendingAfter packetSign unique)),
        cfg.loopEvents (cfg.serverHello packetSign unique) 0, []⟩ := by
    rw [session, Session.begin, start, h.newPacketSign, h.randomU64]
    rfl
  rw [hsession]
  exact Session.afterAll_send

/-- A server that receives a client hello it admits sends its signature, and has
established the connection. -/
theorem afterAll_accept {moment : Moment} {pending : ServerPending C} {hello : ClientHello}
    {publicKey signature : Bytes}
    (h : cfg.Admits moment.V pending.unique hello publicKey signature) (trace : List Event)
    (sent : Bytes) :
    (⟨.readFrame pending, trace, sent⟩ : ServerSession C).afterAll (cfg.resume moment)
        (frameAnswers (signedHelloWire signature hello) ++
          sendAnswers (cfg.completeWire pending (signedHelloWire signature hello))) =
      ⟨.done (established moment.now pending hello),
        trace ++ cfg.acceptEvents pending (signedHelloWire signature hello),
        sent ++ Hdlc.encode (cfg.completeWire pending (signedHelloWire signature hello))⟩ := by
  have hsize := fits_signedHelloWire h.accepts.length hello
  rw [Session.afterAll_append, Session.afterAll_frame hsize,
    resume_of_admits (Hdlc.decode_encode hsize) h]
  exact Session.afterAll_send

end ServerConfig

end Axsh

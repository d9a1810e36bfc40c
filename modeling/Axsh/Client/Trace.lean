/-
# What a client does, in order

The trace of a client session is a front of one of two scripts, according to
whether the lookup knew the server's key. The invariant ties each await point to
the part of the script behind it, and the variables that are live there to the
messages in it.
-/

import Axsh.Client
import Axsh.Handshake.Drive

set_option autoImplicit false

namespace Axsh

abbrev ClientSession (C : Crypto) := Session (ClientAwait C) (ClientStream C)

namespace ClientConfig

variable {C : Crypto} (cfg : ClientConfig C)

/-- A client session before its first poll. -/
def session : ClientSession C := .begin (pure start)

/-- One poll, with any clock reading and any answer of the stream. The verdicts on
signatures are some that `verdicts` allows. -/
def Step (verdicts : Verifier → Prop) (s s' : ClientSession C) : Prop :=
  ∃ moment answer, verdicts moment.V ∧ s' = s.after (cfg.resume moment) answer

/-- Any number of polls. -/
abbrev Run (verdicts : Verifier → Prop) : ClientSession C → ClientSession C → Prop :=
  Relation.ReflTransGen (cfg.Step verdicts)

/-- The script up to the request for the server's key. -/
def requestEvents (hello : ServerHello) : List Event :=
  [.received (helloWire hello), .lookedUp hello none, .wrote [packetTypeRequestServerPubkey]]

/-- The two ways to a server's public key, and the script up to it. -/
inductive KeySource (hello : ServerHello) (publicKey : Bytes) : List Event → Prop
  | known (h : cfg.lookupServerPubkey hello = .ok (some publicKey)) :
      KeySource hello publicKey
        [.received (helloWire hello), .lookedUp hello (some publicKey)]
  | fetched (h : cfg.lookupServerPubkey hello = .ok none) :
      KeySource hello publicKey
        (requestEvents hello ++ [.received (packetTypeServerPubkey :: publicKey)])

theorem KeySource.received {cfg : ClientConfig C} {hello : ServerHello} {publicKey : Bytes}
    {lead : List Event} (h : cfg.KeySource hello publicKey lead) :
    lead.head? = some (.received (helloWire hello)) := by
  cases h with
  | known | fetched => rfl

/-- A session's trace begins with the one server hello that it received. -/
theorem KeySource.head_eq {cfg : ClientConfig C} {hello : ServerHello} {publicKey : Bytes}
    {lead rest trace : List Event} (h : cfg.KeySource hello publicKey lead)
    (htrace : lead ++ rest <+: trace) : trace.head? = some (.received (helloWire hello)) := by
  obtain ⟨later, rfl⟩ := htrace
  rw [List.append_assoc, List.head?_append, h.received]
  rfl

theorem helloWire_injective : Function.Injective helloWire := by
  intro hello hello' h
  exact encodeServerHello_injective (List.cons.inj h).2

/-- A client that has answered a hello of the server: how it came by the key, the
digest of which was in the hello and which the application accepted, and its own
packet key and challenge value. -/
structure Answered (hello : ServerHello) (publicKey : Bytes) (packetSign : PacketSign C)
    (unique : UInt64) (lead : List Event) : Prop where
  source : cfg.KeySource hello publicKey lead
  digest : hello.connSignPublicKeySha256 = C.sha256 publicKey
  accepted : cfg.acceptServerPubkey hello publicKey = .ok ()
  newPacketSign : cfg.newPacketSign = .ok packetSign
  randomU64 : cfg.randomU64 = .ok unique

/-- The fronts of the scripts at which a session may fail. -/
inductive Script : List Event → Prop
  | nil : Script []
  | badHello (wire : Bytes) : Script [.received wire]
  | requested {hello : ServerHello} (h : cfg.lookupServerPubkey hello = .ok none) :
      Script (requestEvents hello)
  | badKey {hello : ServerHello} (h : cfg.lookupServerPubkey hello = .ok none) (wire : Bytes) :
      Script (requestEvents hello ++ [.received wire])
  | keyed {hello : ServerHello} {publicKey : Bytes} {lead : List Event}
      (h : cfg.KeySource hello publicKey lead) : Script lead
  | asked {hello : ServerHello} {publicKey : Bytes} {lead : List Event}
      (h : cfg.KeySource hello publicKey lead)
      (digest : hello.connSignPublicKeySha256 = C.sha256 publicKey) :
      Script (lead ++ [.asked hello publicKey (cfg.acceptServerPubkey hello publicKey).isOk])
  | answered {hello : ServerHello} {publicKey : Bytes} {packetSign : PacketSign C}
      {unique : UInt64} {lead : List Event}
      (h : cfg.Answered hello publicKey packetSign unique lead) :
      Script (lead ++ cfg.answerEvents hello publicKey packetSign unique)
  | closed {hello : ServerHello} {publicKey : Bytes} {packetSign : PacketSign C}
      {unique : UInt64} {lead : List Event}
      (h : cfg.Answered hello publicKey packetSign unique lead) (wire : Bytes) :
      Script (lead ++ cfg.answerEvents hello publicKey packetSign unique ++ [.received wire])

/-- What is known at an await point. -/
def AtAwait : ClientAwait C → List Event → Prop
  | .serverHello, trace => trace = []
  | .serverPubkey wire hello, trace =>
    wire = helloWire hello ∧ cfg.lookupServerPubkey hello = .ok none ∧
      trace = requestEvents hello
  | .serverComplete pending, trace => ∃ now hello publicKey packetSign unique lead,
    cfg.Answered hello publicKey packetSign unique lead ∧
      pending = cfg.pendingAfter now (helloWire hello) hello publicKey packetSign unique ∧
      trace = lead ++ cfg.answerEvents hello publicKey packetSign unique

/-- The server's signature that a client has verified: of the mode's length, by
the accepted key, over the two hello messages. -/
structure Verified (V : Verifier) (hello : ServerHello) (publicKey : Bytes)
    (packetSign : PacketSign C) (unique : UInt64) (signature : Bytes) : Prop where
  length : signature.length = connSignatureLen cfg.connSign.quantumInsecure
  verified : (cfg.connSign.peerVerifier publicKey).verifyDetached V signature
    (helloWire hello ++ cfg.clientHelloWire hello packetSign unique) = .ok true

/-- What is known of an established connection. -/
def AtDone (verdicts : Verifier → Prop) (stream : ClientStream C) (trace : List Event) : Prop :=
  ∃ V now hello publicKey packetSign unique lead signature, verdicts V ∧
    cfg.Answered hello publicKey packetSign unique lead ∧
      cfg.Verified V hello publicKey packetSign unique signature ∧
      stream = established
        (cfg.pendingAfter now (helloWire hello) hello publicKey packetSign unique) ∧
      trace = lead ++ cfg.answerEvents hello publicKey packetSign unique ++
        [.received (packetTypeServerComplete :: signature)]

theorem AtAwait.script {k : ClientAwait C} {trace : List Event} (h : cfg.AtAwait k trace) :
    cfg.Script trace := by
  cases k with
  | serverHello =>
    obtain rfl := h
    exact .nil
  | serverPubkey wire hello =>
    obtain ⟨-, hlookup, rfl⟩ := h
    exact .requested hlookup
  | serverComplete pending =>
    obtain ⟨now, hello, publicKey, packetSign, unique, lead, hanswered, -, rfl⟩ := h
    exact .answered hanswered

variable {verdicts : Verifier → Prop}

theorem AtDone.script {stream : ClientStream C} {trace : List Event}
    (h : cfg.AtDone verdicts stream trace) : cfg.Script trace := by
  obtain ⟨V, now, hello, publicKey, packetSign, unique, lead, signature, -, hanswered, -, -, rfl⟩ :=
    h
  exact .closed hanswered _

/-- A client session keeps to its script. -/
abbrev Follows (verdicts : Verifier → Prop) (task : ClientTask C) (trace : List Event) : Prop :=
  task.Holds cfg.AtAwait (cfg.AtDone verdicts) cfg.Script trace

/-- A computation that fails leaves a script that may fail there. -/
theorem follows_of_failsWith {act : Act (ClientTask C)} {events trace : List Event}
    (h : act.FailsWith events) (hscript : cfg.Script (trace ++ events)) :
    cfg.Follows verdicts (Task.ofAct act).task (trace ++ act.events) := by
  obtain ⟨⟨e, hresult⟩, rfl⟩ := h
  rw [Task.ofAct, hresult]
  exact hscript

theorem follows_of_refuses {act : Act (ClientTask C)} {trace : List Event} (h : act.Refuses)
    (hnil : cfg.Script trace) (hreceived : ∀ wire, cfg.Script (trace ++ [.received wire])) :
    cfg.Follows verdicts (Task.ofAct act).task (trace ++ act.events) := by
  rcases h with h | ⟨wire, h⟩
  · exact cfg.follows_of_failsWith h ((List.append_nil trace).symm ▸ hnil)
  · exact cfg.follows_of_failsWith h (hreceived wire)

/-- From a key that a script led to, a client keeps to that script. -/
theorem onPublicKey_follows {hello : ServerHello} {publicKey : Bytes} {lead : List Event}
    (h : cfg.KeySource hello publicKey lead) (now : Instant) :
    cfg.Follows verdicts (Task.ofAct (cfg.onPublicKey now (helloWire hello) hello publicKey)).task
      (lead ++ (cfg.onPublicKey now (helloWire hello) hello publicKey).events) := by
  rcases cfg.onPublicKey_eq now (helloWire hello) hello publicKey with
    hfails | ⟨hdigest, hfails⟩ | ⟨packetSign, unique, hdigest, haccept, hkey, hunique, hrun⟩
  · exact cfg.follows_of_failsWith hfails ((List.append_nil lead).symm ▸ .keyed h)
  · exact cfg.follows_of_failsWith hfails (.asked h hdigest)
  · rw [hrun]
    exact ⟨now, hello, publicKey, packetSign, unique, lead, ⟨h, hdigest, haccept, hkey, hunique⟩,
      rfl, rfl⟩

/-- From every await point a client keeps to its script. -/
theorem resume_follows (moment : Moment) (hV : verdicts moment.V) (k : ClientAwait C)
    (frame : Bytes) (trace : List Event) (h : cfg.AtAwait k trace) :
    cfg.Follows verdicts (Task.ofAct (cfg.resume moment k frame)).task
      (trace ++ (cfg.resume moment k frame).events) := by
  cases k with
  | serverHello =>
    obtain rfl := h
    change cfg.Follows verdicts (Task.ofAct (cfg.onServerHello moment frame)).task
      ([] ++ (cfg.onServerHello moment frame).events)
    -- A hello is refused, or leads to the question about its key: at once if the lookup knows the
    -- key, after a request if not.
    rcases cfg.onServerHello_eq moment frame with
      hrefuses | ⟨hello, wire, rfl, ⟨publicKey, hlookup, hrun⟩ | ⟨hlookup, hrun⟩⟩
    · exact cfg.follows_of_refuses hrefuses .nil .badHello
    · rw [hrun]
      exact cfg.onPublicKey_follows (.known hlookup) moment.now
    · rw [hrun]
      exact ⟨rfl, hlookup, rfl⟩
  | serverPubkey wire hello =>
    obtain ⟨rfl, hlookup, rfl⟩ := h
    change cfg.Follows verdicts (Task.ofAct (cfg.onServerPubkey moment (helloWire hello)
      hello frame)).task
      (requestEvents hello ++ (cfg.onServerPubkey moment (helloWire hello) hello frame).events)
    rcases cfg.onServerPubkey_eq moment (helloWire hello) hello frame with
      hrefuses | ⟨publicKey, hrun⟩
    · -- The refused packet is recorded or not, as it was decoded or not.
      exact cfg.follows_of_refuses hrefuses (.requested hlookup) (.badKey hlookup)
    · rw [hrun]
      exact cfg.onPublicKey_follows (.fetched hlookup) moment.now
  | serverComplete pending =>
    -- The await point remembers the answer that was sent, so the trace so far is that of the
    -- answer.
    obtain ⟨now, hello, publicKey, packetSign, unique, lead, hanswered, rfl, rfl⟩ := h
    change cfg.Follows verdicts (Task.ofAct (cfg.onServerComplete moment _ frame)).task
      (_ ++ (cfg.onServerComplete moment _ frame).events)
    rcases cfg.onServerComplete_eq moment
      (cfg.pendingAfter now (helloWire hello) hello publicKey packetSign unique) frame with
      hrefuses | ⟨signature, hlen, hverified, hrun⟩
    · exact cfg.follows_of_refuses hrefuses (.answered hanswered) (.closed hanswered)
    · rw [hrun]
      exact ⟨moment.V, now, hello, publicKey, packetSign, unique, lead, signature, hV, hanswered,
        ⟨hlen, hverified⟩, rfl, rfl⟩

/-- Every poll keeps a client session to its script. -/
theorem Follows.poll {cfg : ClientConfig C} {task : ClientTask C} {trace : List Event}
    (h : cfg.Follows verdicts task trace) (moment : Moment) (hV : verdicts moment.V)
    (answer : Answer) :
    cfg.Follows verdicts (task.poll (cfg.resume moment) answer).task
      (trace ++ (task.poll (cfg.resume moment) answer).events) :=
  Task.Holds.poll (fun _ _ hk => hk.script) (fun _ _ hd => hd.script)
    (cfg.resume_follows moment hV) h answer

/-- Every client session keeps to its script. -/
theorem Run.follows {s : ClientSession C} (hrun : cfg.Run verdicts session s) :
    cfg.Follows verdicts s.task s.trace := by
  induction hrun with
  | refl => rfl
  | tail _ hstep ih =>
    obtain ⟨moment, answer, hV, rfl⟩ := hstep
    exact ih.poll moment hV answer

theorem AtDone.mono {verdicts' : Verifier → Prop} {stream : ClientStream C} {trace : List Event}
    (h : cfg.AtDone verdicts stream trace) (hle : ∀ V, verdicts V → verdicts' V) :
    cfg.AtDone verdicts' stream trace := by
  obtain ⟨V, now, hello, publicKey, packetSign, unique, lead, signature, hV, hrest⟩ := h
  exact ⟨V, now, hello, publicKey, packetSign, unique, lead, signature, hle V hV, hrest⟩

theorem Follows.mono {cfg : ClientConfig C} {verdicts' : Verifier → Prop} {task : ClientTask C}
    {trace : List Event} (h : cfg.Follows verdicts task trace)
    (hle : ∀ V, verdicts V → verdicts' V) : cfg.Follows verdicts' task trace :=
  Task.Holds.mono (fun _ hk => hk) (fun _ hd => hd.mono cfg hle) (fun hf => hf) h

theorem Follows.script {cfg : ClientConfig C} {task : ClientTask C} {trace : List Event}
    (h : cfg.Follows verdicts task trace) : cfg.Script trace :=
  h.fails (fun _ hk => hk.script) (fun _ hd => hd.script)

/-! ## What a client signs -/

theorem KeySource.notMem {hello : ServerHello} {publicKey message : Bytes} {lead : List Event}
    (h : cfg.KeySource hello publicKey lead) : .signed message ∉ lead := by
  cases h with
  | known | fetched => simp [requestEvents]

/-- A client that has signed a message has answered a hello of the server, and the
message is the challenge value in that with its own hello. -/
theorem Script.signed_of_mem {cfg : ClientConfig C} {trace : List Event} {message : Bytes}
    (h : cfg.Script trace) (hmem : .signed message ∈ trace) :
    ∃ hello publicKey packetSign unique lead,
      cfg.Answered hello publicKey packetSign unique lead ∧
      message = u64ToBeBytes hello.unique ++
        encodeClientHello (cfg.clientHello packetSign unique) ∧
      lead ++ cfg.answerEvents hello publicKey packetSign unique <+: trace := by
  cases h with
  -- Only the answer signs. The scripts that end before it hold no signature.
  | nil | badHello | requested | badKey => simp [requestEvents] at hmem
  | keyed hsource => exact absurd hmem hsource.notMem
  | asked hsource _ =>
    rcases List.mem_append.mp hmem with hlead | hasked
    · exact absurd hlead hsource.notMem
    · simp at hasked
  | answered hanswered =>
    rcases List.mem_append.mp hmem with hlead | hanswer
    · exact absurd hlead hanswered.source.notMem
    · exact ⟨_, _, _, _, _, hanswered, by simpa [answerEvents] using hanswer,
        List.prefix_refl _⟩
  | closed hanswered wire =>
    rw [List.append_assoc] at hmem
    rcases List.mem_append.mp hmem with hlead | hanswer
    · exact absurd hlead hanswered.source.notMem
    · exact ⟨_, _, _, _, _, hanswered, by simpa [answerEvents] using hanswer,
        List.prefix_append _ _⟩

/-! ## What a client sends -/

theorem onPublicKey_queues (now : Instant) (wire : Bytes) (hello : ServerHello)
    (publicKey : Bytes) (lead : List Event) (hlead : framesOf lead = []) :
    (⟨lead ++ (cfg.onPublicKey now wire hello publicKey).events,
      (cfg.onPublicKey now wire hello publicKey).result⟩ : Act (ClientTask C)).Queues := by
  rcases cfg.onPublicKey_eq now wire hello publicKey with
    ⟨⟨e, hresult⟩, hevents⟩ | ⟨-, ⟨e, hresult⟩, hevents⟩ |
      ⟨packetSign, unique, -, -, -, -, hrun⟩
  · rw [hresult, hevents, List.append_nil]
    exact hlead
  · rw [hresult, hevents]
    change framesOf _ = []
    rw [framesOf_append, hlead]
    rfl
  · rw [hrun]
    change _ = framesOf _
    rw [framesOf_append, hlead]
    rfl

theorem queues_of_refuses {act : Act (ClientTask C)} (h : act.Refuses) : act.Queues := by
  rcases h with ⟨⟨e, hresult⟩, hevents⟩ | ⟨wire, ⟨e, hresult⟩, hevents⟩
  all_goals
    unfold Act.Queues
    rw [hresult, hevents]
    rfl

/-- A client sends the messages that its trace says it writes. -/
theorem resume_queues (moment : Moment) (k : ClientAwait C) (frame : Bytes) :
    (cfg.resume moment k frame).Queues := by
  cases k with
  | serverHello =>
    rcases cfg.onServerHello_eq moment frame with
      hrefuses | ⟨hello, wire, -, ⟨publicKey, -, hrun⟩ | ⟨-, hrun⟩⟩
    · exact queues_of_refuses hrefuses
    · rw [resume, hrun]
      exact cfg.onPublicKey_queues moment.now wire hello publicKey
        [.received wire, .lookedUp hello (some publicKey)] rfl
    · rw [resume, hrun]
      exact (List.append_nil _)
  | serverPubkey wire hello =>
    rcases cfg.onServerPubkey_eq moment wire hello frame with hrefuses | ⟨publicKey, hrun⟩
    · exact queues_of_refuses hrefuses
    · rw [resume, hrun]
      exact cfg.onPublicKey_queues moment.now wire hello publicKey
        [.received (packetTypeServerPubkey :: publicKey)] rfl
  | serverComplete pending =>
    rcases cfg.onServerComplete_eq moment pending frame with hrefuses | ⟨signature, -, -, hrun⟩
    · exact queues_of_refuses hrefuses
    · rw [resume, hrun]
      rfl

/-- The bytes a client session has sent are those of the messages in its trace. -/
theorem Run.balanced {s : ClientSession C} (hrun : cfg.Run verdicts session s) : s.Balanced := by
  induction hrun with
  | refl => exact Session.balanced_begin rfl
  | tail _ hstep ih =>
    obtain ⟨moment, answer, -, rfl⟩ := hstep
    exact ih.after (cfg.resume_queues moment) answer

/-! ## The run of a client that knows the server's key -/

/-- Polls with one moment are a run. -/
theorem Run.afterAll (verdicts : Verifier → Prop) {moment : Moment} (hV : verdicts moment.V)
    (s : ClientSession C) (answers : List Answer) :
    cfg.Run verdicts s (s.afterAll (cfg.resume moment) answers) := by
  induction answers generalizing s with
  | nil => exact .refl
  | cons answer answers ih => exact .head ⟨moment, answer, hV, rfl⟩ (ih _)

section Known

variable {cfg} {hello : ServerHello} {publicKey : Bytes}
  {packetSign : PacketSign C} {unique : UInt64}

/-- A client whose lookup knows the key of a hello answers that hello. -/
theorem afterAll_known (moment : Moment)
    (hlookup : cfg.lookupServerPubkey hello = .ok (some publicKey))
    (hdigest : hello.connSignPublicKeySha256 = C.sha256 publicKey)
    (haccept : cfg.acceptServerPubkey hello publicKey = .ok ())
    (hkey : cfg.newPacketSign = .ok packetSign) (hunique : cfg.randomU64 = .ok unique) :
    (session : ClientSession C).afterAll (cfg.resume moment)
        (frameAnswers (helloWire hello) ++
          sendAnswers (cfg.clientHelloWire hello packetSign unique)) =
      ⟨.readFrame (.serverComplete
          (cfg.pendingAfter moment.now (helloWire hello) hello publicKey packetSign unique)),
        [.received (helloWire hello), .lookedUp hello (some publicKey)] ++
          cfg.answerEvents hello publicKey packetSign unique,
        Hdlc.encode (cfg.clientHelloWire hello packetSign unique)⟩ := by
  -- The whole step: the hello is parsed, the key is known and accepted, and the client hello is
  -- queued.
  have hread : cfg.resume moment .serverHello (Hdlc.encode (helloWire hello)) =
      ⟨[.received (helloWire hello), .lookedUp hello (some publicKey)] ++
          cfg.answerEvents hello publicKey packetSign unique,
        .ok (.send (cfg.clientHelloWire hello packetSign unique) (.readFrame (.serverComplete
          (cfg.pendingAfter moment.now (helloWire hello)
            hello publicKey packetSign unique))))⟩ := by
    apply (onServerHello_of_some (Hdlc.decode_encode (fits_helloWire hello)) hlookup).trans
    rw [← helloWire, onPublicKey_of_accepted hdigest haccept hkey hunique]
    rfl
  have hstart : (session : ClientSession C) = ⟨.readFrame .serverHello, [], []⟩ := rfl
  rw [Session.afterAll_append, hstart, Session.afterAll_frame (fits_helloWire hello), hread]
  exact Session.afterAll_send

/-- A client that receives the server's signature has established the connection. -/
theorem afterAll_complete (moment : Moment) {pending : ClientPending C} {trace : List Event}
    {sent signature : Bytes}
    (hlen : signature.length = connSignatureLen cfg.connSign.quantumInsecure)
    (hverified : pending.serverConnVerify.verifyDetached moment.V signature
      (pending.serverHelloWire ++ pending.clientHelloWire) = .ok true) :
    (⟨.readFrame (.serverComplete pending), trace, sent⟩ : ClientSession C).afterAll
        (cfg.resume moment) (frameAnswers (packetTypeServerComplete :: signature)) =
      ⟨.done (established pending),
        trace ++ [.received (packetTypeServerComplete :: signature)], sent⟩ := by
  have hsize :
      (Hdlc.encode (packetTypeServerComplete :: signature)).length ≤ Hdlc.maxFrameSize := by
    apply Hdlc.length_encode_le_max
    -- The longer of the two signatures is still far below a frame.
    have hle := connSignatureLen_le cfg.connSign.quantumInsecure
    rw [List.length_cons, hlen]
    omega
  have hread : cfg.resume moment (.serverComplete pending)
      (Hdlc.encode (packetTypeServerComplete :: signature)) =
        ⟨[.received (packetTypeServerComplete :: signature)], .ok (.done (established pending))⟩ :=
    onServerComplete_of_verified (Hdlc.decode_encode hsize) hlen hverified
  rw [Session.afterAll_frame hsize, hread]
  rfl

/-- A client whose lookup knows the key of a hello, and that receives the signature
of that key's holder, has established the connection. -/
theorem afterAll_established (moment : Moment) {signature : Bytes}
    (hlookup : cfg.lookupServerPubkey hello = .ok (some publicKey))
    (hdigest : hello.connSignPublicKeySha256 = C.sha256 publicKey)
    (haccept : cfg.acceptServerPubkey hello publicKey = .ok ())
    (hkey : cfg.newPacketSign = .ok packetSign) (hunique : cfg.randomU64 = .ok unique)
    (hverified : cfg.Verified moment.V hello publicKey packetSign unique signature) :
    (session : ClientSession C).afterAll (cfg.resume moment)
        (frameAnswers (helloWire hello) ++
          sendAnswers (cfg.clientHelloWire hello packetSign unique) ++
          frameAnswers (packetTypeServerComplete :: signature)) =
      ⟨.done (established
          (cfg.pendingAfter moment.now (helloWire hello) hello publicKey packetSign unique)),
        [.received (helloWire hello), .lookedUp hello (some publicKey)] ++
            cfg.answerEvents hello publicKey packetSign unique ++
          [.received (packetTypeServerComplete :: signature)],
        Hdlc.encode (cfg.clientHelloWire hello packetSign unique)⟩ := by
  rw [Session.afterAll_append, afterAll_known moment hlookup hdigest haccept hkey hunique]
  exact afterAll_complete moment hverified.length hverified.verified

end Known

end ClientConfig

end Axsh

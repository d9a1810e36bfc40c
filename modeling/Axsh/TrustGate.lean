/-
# The client's trust gate

Whatever a server presents and whatever the callbacks answer: the application is
asked about one key at most, the one that the server's hello is about; the client
asks for a key only if its lookup has none, and signs only after the application
has accepted; and it returns a connection only under the accepted key.

The trace of a session is one of the scripts, so each of these is a fact about
scripts.
-/

import Axsh.Client.Trace
import Axsh.Handshake.Sample
import Axsh.Lib.Precedence

set_option autoImplicit false

namespace Axsh

/-- The application is asked about a key. -/
def Event.isAsked : Event → Bool
  | .asked _ _ _ => true
  | _ => false

/-- The lookup does not know the key of a hello. -/
def Event.IsUnknown (event : Event) : Prop := ∃ hello, event = .lookedUp hello none

/-- A request for the server's key is written. -/
def Event.IsRequest (event : Event) : Prop := event = .wrote [packetTypeRequestServerPubkey]

/-- The application accepts a key. -/
def Event.IsAccepted (event : Event) : Prop :=
  ∃ hello publicKey, event = .asked hello publicKey true

/-- A client hello is written or the connection key is used. -/
def Event.IsCommitment (event : Event) : Prop :=
  (∃ body, event = .wrote (packetTypeClientHello :: body)) ∨ ∃ message, event = .signed message

namespace ClientConfig

variable {C : Crypto} {cfg : ClientConfig C} {hello : ServerHello} {publicKey : Bytes}
  {packetSign : PacketSign C} {unique : UInt64} {lead trace : List Event}

/-! ## Scripts -/

theorem KeySource.countP_isAsked (h : cfg.KeySource hello publicKey lead) :
    lead.countP Event.isAsked = 0 := by
  cases h with
  | known | fetched => rfl

/-- On the way to a key the client commits to nothing. -/
theorem KeySource.not_isCommitment (h : cfg.KeySource hello publicKey lead) :
    ∀ event ∈ lead, ¬ event.IsCommitment := by
  cases h with
  | known | fetched => simp [Event.IsCommitment, requestEvents, packetTypeRequestServerPubkey,
      packetTypeClientHello]

theorem Script.countP_isAsked (h : cfg.Script trace) : trace.countP Event.isAsked ≤ 1 := by
  cases h with
  | nil | badHello | requested | badKey => exact Nat.zero_le 1
  | keyed hkey => exact hkey.countP_isAsked.trans_le (Nat.zero_le 1)
  | asked hkey _ =>
    rw [List.countP_append, hkey.countP_isAsked]
    exact le_refl 1
  | answered hanswered =>
    rw [List.countP_append, hanswered.source.countP_isAsked]
    exact le_refl 1
  | closed hanswered wire =>
    rw [List.countP_append, List.countP_append, hanswered.source.countP_isAsked]
    exact le_refl 1

/-- A question that the application was rightly asked, in a trace, and the answer
that it gave. -/
structure AskedRightly (cfg : ClientConfig C) (trace : List Event) (hello : ServerHello)
    (publicKey : Bytes) (accepted : Bool) : Prop where
  received : trace.head? = some (.received (helloWire hello))
  digest : hello.connSignPublicKeySha256 = C.sha256 publicKey
  answer : accepted = (cfg.acceptServerPubkey hello publicKey).isOk

/-- The only key asked about after a way to a key is that key. -/
theorem KeySource.asked_of_mem (h : cfg.KeySource hello publicKey lead)
    (digest : hello.connSignPublicKeySha256 = C.sha256 publicKey) {second : List Event}
    (hsecond : ∀ hello' key accepted, .asked hello' key accepted ∈ second →
      hello' = hello ∧ key = publicKey ∧ accepted = (cfg.acceptServerPubkey hello publicKey).isOk)
    {hello' : ServerHello} {key : Bytes} {accepted : Bool}
    (hmem : .asked hello' key accepted ∈ lead ++ second) :
    cfg.AskedRightly (lead ++ second) hello' key accepted := by
  rcases List.mem_append.mp hmem with hlead | hmem
  · have hzero := List.countP_eq_zero.mp h.countP_isAsked _ hlead
    exact absurd rfl hzero
  · obtain ⟨rfl, rfl, hanswer⟩ := hsecond _ _ _ hmem
    exact ⟨by rw [List.head?_append, h.received]; rfl, digest, hanswer⟩

theorem Script.asked_of_mem (h : cfg.Script trace) {key : Bytes} {accepted : Bool}
    (hmem : .asked hello key accepted ∈ trace) : cfg.AskedRightly trace hello key accepted := by
  cases h with
  | nil | badHello | requested | badKey => simp [requestEvents] at hmem
  -- No question stands in the way to a key; the one behind it is about that key.
  | keyed hkey =>
    exact absurd rfl (List.countP_eq_zero.mp hkey.countP_isAsked _ hmem)
  | asked hkey digest =>
    refine hkey.asked_of_mem digest ?_ hmem
    intro hello' key accepted hmem
    have heq := List.mem_singleton.mp hmem
    injection heq with hhello hkey haccepted
    exact ⟨hhello, hkey, haccepted⟩
  | answered hanswered =>
    refine hanswered.source.asked_of_mem hanswered.digest ?_ hmem
    intro hello' key accepted hmem
    simpa [answerEvents, hanswered.accepted, Res.isOk] using hmem
  | closed hanswered wire =>
    rw [List.append_assoc] at hmem ⊢
    refine hanswered.source.asked_of_mem hanswered.digest ?_ hmem
    intro hello' key accepted hmem
    simpa [answerEvents, hanswered.accepted, Res.isOk] using hmem

/-- The lookup gave the answer that a trace records. -/
theorem Script.lookedUp_of_mem (h : cfg.Script trace) {answer : Option Bytes}
    (hmem : .lookedUp hello answer ∈ trace) : cfg.lookupServerPubkey hello = .ok answer := by
  -- The lookup is recorded once, on the way to the key.
  have hlead : ∀ {hello' : ServerHello} {publicKey : Bytes} {lead : List Event},
      cfg.KeySource hello' publicKey lead → .lookedUp hello answer ∈ lead →
        cfg.lookupServerPubkey hello = .ok answer := by
    intro hello' publicKey lead hsource hmem
    cases hsource with
    | known hlookup | fetched hlookup =>
      simp [requestEvents] at hmem
      rw [hmem.1, hmem.2, hlookup]
  cases h with
  | nil | badHello => simp at hmem
  | requested hlookup | badKey hlookup =>
    simp [requestEvents] at hmem
    rw [hmem.1, hmem.2, hlookup]
  | keyed hsource => exact hlead hsource hmem
  | asked hsource _ => exact hlead hsource (by simpa using hmem)
  | answered hanswered => exact hlead hanswered.source (by simpa [answerEvents] using hmem)
  | closed hanswered _ => exact hlead hanswered.source (by simpa [answerEvents] using hmem)

/-- A request comes after the lookup that had no key. -/
theorem requestEvents_order (hello : ServerHello) (second : List Event) :
    OnlyAfter Event.IsUnknown Event.IsRequest (requestEvents hello ++ second) := by
  have hfront : OnlyAfter Event.IsUnknown Event.IsRequest
      [.received (helloWire hello), .lookedUp hello none] :=
    onlyAfter_of_forall_not (by simp [Event.IsRequest])
  exact hfront.append ⟨.lookedUp hello none, by simp, hello, rfl⟩

theorem KeySource.request_order (h : cfg.KeySource hello publicKey lead) {second : List Event}
    (hsecond : ∀ event ∈ second, ¬ event.IsRequest) :
    OnlyAfter Event.IsUnknown Event.IsRequest (lead ++ second) := by
  cases h with
  | known =>
    refine onlyAfter_of_forall_not fun event hmem => ?_
    rcases List.mem_append.mp hmem with hlead | hmem
    · simp only [List.mem_cons, List.not_mem_nil, or_false] at hlead
      rcases hlead with rfl | rfl
      all_goals simp [Event.IsRequest]
    · exact hsecond event hmem
  | fetched =>
    rw [List.append_assoc]
    exact requestEvents_order hello _

/-- A client hello is not a request. -/
theorem clientHelloWire_ne_request :
    cfg.clientHelloWire hello packetSign unique ≠ [packetTypeRequestServerPubkey] := by
  intro h
  exact absurd (List.cons.inj h).1 (by decide)

theorem Script.request_order (h : cfg.Script trace) :
    OnlyAfter Event.IsUnknown Event.IsRequest trace := by
  cases h with
  | nil => exact onlyAfter_of_forall_not (by simp)
  | badHello wire => exact onlyAfter_of_forall_not (by simp [Event.IsRequest])
  | requested _ => exact List.append_nil (requestEvents _) ▸ requestEvents_order _ []
  | badKey _ wire => exact requestEvents_order _ _
  | keyed hkey => exact List.append_nil trace ▸ hkey.request_order (by simp)
  | asked hkey _ => exact hkey.request_order (by simp [Event.IsRequest])
  | answered hanswered =>
    exact hanswered.source.request_order (by
      simp [Event.IsRequest, answerEvents, clientHelloWire_ne_request])
  | closed hanswered wire =>
    rw [List.append_assoc]
    exact hanswered.source.request_order (by
      simp [Event.IsRequest, answerEvents, clientHelloWire_ne_request])

/-- A client signs, and writes its hello, after the application has accepted. -/
theorem KeySource.commitment_order (h : cfg.KeySource hello publicKey lead) (accepted : Bool) :
    OnlyAfter Event.IsAccepted Event.IsCommitment (lead ++ [.asked hello publicKey accepted]) := by
  refine onlyAfter_of_forall_not fun event hmem => ?_
  rcases List.mem_append.mp hmem with hlead | hmem
  · exact h.not_isCommitment event hlead
  · obtain rfl := List.mem_singleton.mp hmem
    simp [Event.IsCommitment]

theorem KeySource.accepted_order (h : cfg.KeySource hello publicKey lead) (second : List Event) :
    OnlyAfter Event.IsAccepted Event.IsCommitment
      (lead ++ .asked hello publicKey true :: second) := by
  have hsplit : lead ++ .asked hello publicKey true :: second =
      lead ++ [.asked hello publicKey true] ++ second := by
    rw [List.append_assoc, List.singleton_append]
  rw [hsplit]
  refine (h.commitment_order true).append ⟨.asked hello publicKey true, ?_, hello, publicKey, rfl⟩
  exact List.mem_append_right _ (List.mem_singleton_self _)

theorem Script.commitment_order (h : cfg.Script trace) :
    OnlyAfter Event.IsAccepted Event.IsCommitment trace := by
  cases h with
  | nil | badHello | requested | badKey =>
    exact onlyAfter_of_forall_not (by
      simp [Event.IsCommitment, requestEvents, packetTypeRequestServerPubkey,
        packetTypeClientHello])
  | keyed hkey => exact onlyAfter_of_forall_not hkey.not_isCommitment
  | asked hkey _ => exact hkey.commitment_order _
  | answered hanswered => exact hanswered.source.accepted_order _
  | closed hanswered wire =>
    rw [List.append_assoc]
    exact hanswered.source.accepted_order _

/-! ## The gate -/

/-- What holds of a client session, whatever it has met. `V` gives the verdicts on
signatures. -/
structure TrustGate (cfg : ClientConfig C) (V : Verifier) (s : ClientSession C) : Prop where
  /-- The application is asked at most once. -/
  asked_once : s.trace.countP Event.isAsked ≤ 1
  /-- It is asked about a key with the digest in the hello that was received. -/
  asked_rightly : ∀ hello publicKey accepted, .asked hello publicKey accepted ∈ s.trace →
    cfg.AskedRightly s.trace hello publicKey accepted
  /-- The lookup is recorded with the answer it gave. -/
  lookedUp : ∀ hello answer, .lookedUp hello answer ∈ s.trace →
    cfg.lookupServerPubkey hello = .ok answer
  /-- The server's key is requested only if the lookup has none. -/
  request_after_none : OnlyAfter Event.IsUnknown Event.IsRequest s.trace
  /-- The client signs, and writes its hello, only after the application has accepted. -/
  hello_after_accepted : OnlyAfter Event.IsAccepted Event.IsCommitment s.trace
  /-- The stream gets the frames of the messages written, in order, and no other bytes. -/
  sent : s.sent <+: framesOf s.trace
  /-- A connection is established under the key that was accepted, which is the key of
  the lookup if that had one, by a signature of the mode's length over the two hellos. -/
  established : ∀ stream, s.task = .done stream → ∃ publicKey clientHello signature,
    .received (helloWire stream.serverHello) ∈ s.trace ∧
      .asked stream.serverHello publicKey true ∈ s.trace ∧
      cfg.acceptServerPubkey stream.serverHello publicKey = .ok () ∧
      .wrote (packetTypeClientHello :: clientHello) ∈ s.trace ∧
      .received (packetTypeServerComplete :: signature) ∈ s.trace ∧
      signature.length = connSignatureLen cfg.connSign.quantumInsecure ∧
      (cfg.connSign.peerVerifier publicKey).verifyDetached V signature
        (helloWire stream.serverHello ++ packetTypeClientHello :: clientHello) = .ok true ∧
      ∀ known, cfg.lookupServerPubkey stream.serverHello = .ok (some known) → known = publicKey

/-- The key that a lookup knows is the only one a script can lead to. -/
theorem KeySource.eq_of_known (h : cfg.KeySource hello publicKey lead) {known : Bytes}
    (hknown : cfg.lookupServerPubkey hello = .ok (some known)) : known = publicKey := by
  cases h with
  | known hlookup =>
    rw [hlookup] at hknown
    exact (Option.some.inj (Except.ok.inj hknown)).symm
  | fetched hlookup =>
    rw [hlookup] at hknown
    cases hknown

/-- In every run, over whatever bytes the server side presents and with whatever
callbacks, a client keeps to the trust gate. -/
theorem trustGate (cfg : ClientConfig C) (V : Verifier) {s : ClientSession C}
    (hrun : cfg.Run (· = V) session s) : cfg.TrustGate V s := by
  have hfollows := hrun.follows
  have hscript := hfollows.script
  refine ⟨hscript.countP_isAsked, fun _ _ _ => hscript.asked_of_mem,
    fun _ _ => hscript.lookedUp_of_mem, hscript.request_order, hscript.commitment_order,
    hrun.balanced.sent, ?_⟩
  intro stream hdone
  rw [hdone] at hfollows
  -- An established stream is that of an answer, so its key was asked about and accepted.
  obtain ⟨_, now, hello, publicKey, packetSign, unique, lead, signature, rfl, hanswered, hverified,
    rfl, htrace⟩ := hfollows
  have hhead : .received (helloWire hello) ∈ lead :=
    List.mem_of_head? hanswered.source.received
  rw [htrace]
  exact ⟨publicKey, _, signature, by simp [established, pendingAfter, hhead],
    by simp [established, pendingAfter, answerEvents], hanswered.accepted,
    by simp [answerEvents, clientHelloWire], by simp, hverified.length, hverified.verified,
    fun _ => hanswered.source.eq_of_known⟩

/-! ## A sample run -/

/-- The client of the sample run, and the answers that its stream gives. -/
def sampleClient : ClientConfig Crypto.sample := sample 1 (ConnSign.sample 2).publicKeyBytes

/-- The sample client after a complete handshake. -/
def sampleDone : ClientSession Crypto.sample :=
  (session : ClientSession Crypto.sample).afterAll (sampleClient.resume ⟨.acceptAll, 0⟩)
    (frameAnswers (helloWire (sampleHello 2 7)) ++
      sendAnswers (sampleClient.clientHelloWire (sampleHello 2 7) (.sample 1) 0) ++
      frameAnswers (packetTypeServerComplete :: (ConnSign.sample 2).signature [] []))

theorem sampleDone_task : ∃ stream, sampleDone.task = .done stream := by
  have hlen := (ConnSign.sample 2).length_signature [] []
  have hdigest : (sampleHello 2 7).connSignPublicKeySha256 =
      Crypto.sample.sha256 (ConnSign.sample 2).publicKeyBytes := rfl
  have hverified : sampleClient.Verified .acceptAll (sampleHello 2 7)
      (ConnSign.sample 2).publicKeyBytes (.sample 1) 0 ((ConnSign.sample 2).signature [] []) := by
    refine ⟨hlen, (ConnVerify.verifyDetached_eq_true_iff_accepts _ hlen _).mpr ⟨hlen, _, _,
      (ConnSign.sample 2).decode_publicKeyBytes, fun _ => rfl, rfl⟩⟩
  exact ⟨_, congrArg Session.task
    (afterAll_established ⟨.acceptAll, 0⟩ rfl hdigest rfl rfl rfl hverified)⟩

theorem sampleDone_run : sampleClient.Run (· = .acceptAll) session sampleDone :=
  Run.afterAll sampleClient (· = .acceptAll) rfl _ _

/-- The gate at a run that ends with a connection. -/
theorem trustGate_sampleDone :
    (∃ stream, sampleDone.task = .done stream) ∧ sampleClient.TrustGate .acceptAll sampleDone :=
  ⟨sampleDone_task, trustGate _ _ sampleDone_run⟩

end ClientConfig

end Axsh

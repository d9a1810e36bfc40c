/-
# Sessions in a hostile network

Any number of client and server sessions run side by side. A session belongs to a
party, whose connection key it signs with; one party may run sessions in both
roles. Between the sessions there is only the attacker: a poll of any session may
happen at any time, and gives it any answer of its stream. Corrupt parties sign
what they like.

What the attacker cannot do is forge. At each poll the verdicts on signatures are
such that at least one of the algorithms that a mode checks accepts, under the key
of a party, only what that party has signed by then.
-/

import Axsh.Client.Trace
import Axsh.Server.Trace
import Axsh.Statement

set_option autoImplicit false

namespace Axsh

/-- Parties with their public key bundles, and sessions with the parties that run
them. -/
structure Network (C : Crypto) (ι α β : Type) where
  publicKey : ι → Bytes
  corrupt : ι → Prop
  client : α → ClientConfig C
  clientParty : α → ι
  client_publicKey : ∀ a, (client a).connSign.publicKeyBytes = publicKey (clientParty a)
  server : β → ServerConfig C
  serverParty : β → ι
  server_publicKey : ∀ b, (server b).connSign.publicKeyBytes = publicKey (serverParty b)

/-- The state of all sessions, and the messages that corrupt parties have signed
outside of any. -/
structure World (C : Crypto) (ι α β : Type) where
  clients : α → ClientSession C
  servers : β → ServerSession C
  foreign : List (ι × Bytes)

namespace Network

variable {C : Crypto} {ι α β : Type} (net : Network C ι α β)

/-- No session has been polled. -/
def initial : World C ι α β where
  clients _ := ClientConfig.session
  servers b := (net.server b).session
  foreign := []

/-- A party has signed a message: in a client session, in a server session, or as a
corrupt party. -/
def Signed (w : World C ι α β) (i : ι) (message : Bytes) : Prop :=
  (∃ a, net.clientParty a = i ∧ .signed message ∈ (w.clients a).trace) ∨
    (∃ b, net.serverParty b = i ∧ .signed message ∈ (w.servers b).trace) ∨
      (i, message) ∈ w.foreign

/-- Verdicts under which the signatures that some modes check are unforged. -/
def Unforged (modes : Bool → Prop) (w : World C ι α β) (V : Verifier) : Prop :=
  ∀ i mode, modes mode →
    (ConnVerify.mk (net.publicKey i) mode).Unforgeable V (net.Signed w i)

variable [DecidableEq α] [DecidableEq β]

/-- The world with another state of one client session. -/
def setClient (w : World C ι α β) (a : α) (s : ClientSession C) : World C ι α β :=
  { w with clients := Function.update w.clients a s }

/-- The world with another state of one server session. -/
def setServer (w : World C ι α β) (b : β) (s : ServerSession C) : World C ι α β :=
  { w with servers := Function.update w.servers b s }

omit [DecidableEq β] in
@[simp] theorem setClient_clients_self (w : World C ι α β) (a : α) (s : ClientSession C) :
    (setClient w a s).clients a = s := Function.update_self ..

omit [DecidableEq β] in
@[simp] theorem setClient_servers (w : World C ι α β) (a : α) (s : ClientSession C) :
    (setClient w a s).servers = w.servers := rfl

omit [DecidableEq α] in
@[simp] theorem setServer_servers_self (w : World C ι α β) (b : β) (s : ServerSession C) :
    (setServer w b s).servers b = s := Function.update_self ..

omit [DecidableEq α] in
@[simp] theorem setServer_clients (w : World C ι α β) (b : β) (s : ServerSession C) :
    (setServer w b s).clients = w.clients := rfl

omit [DecidableEq α] in
theorem setServer_setServer (w : World C ι α β) (b : β) (first second : ServerSession C) :
    setServer (setServer w b first) b second = setServer w b second := by
  simp only [setServer, Function.update_idem]

/-- Of two states set for one server session, the later one counts. -/
theorem setServer_setClient_setServer (w : World C ι α β) (a : α) (b : β) (s : ClientSession C)
    (first second : ServerSession C) :
    setServer (setClient (setServer w b first) a s) b second =
      setServer (setClient w a s) b second := by
  simp only [setServer, setClient, Function.update_idem]

/-- A poll of a session, or a signature of a corrupt party. -/
inductive Step (modes : Bool → Prop) (w : World C ι α β) : World C ι α β → Prop
  | client (a : α) (moment : Moment) (answer : Answer) (hV : net.Unforged modes w moment.V) :
      Step modes w (setClient w a ((w.clients a).after ((net.client a).resume moment) answer))
  | server (b : β) (moment : Moment) (answer : Answer) (hV : net.Unforged modes w moment.V) :
      Step modes w (setServer w b ((w.servers b).after ((net.server b).resume moment) answer))
  | foreign (i : ι) (message : Bytes) (hi : net.corrupt i) :
      Step modes w { w with foreign := (i, message) :: w.foreign }

/-- The worlds that come of any number of steps. -/
def Reachable (modes : Bool → Prop) (w : World C ι α β) : Prop :=
  Relation.ReflTransGen (net.Step modes) net.initial w

/-- What holds of every reachable world: each session keeps to its script, with
verdicts that were unforged, and only corrupt parties sign outside of sessions. -/
structure Invariant (modes : Bool → Prop) (w : World C ι α β) : Prop where
  client : ∀ a, (net.client a).Follows (net.Unforged modes w) (w.clients a).task (w.clients a).trace
  server : ∀ b, (net.server b).Follows (net.Unforged modes w) (w.servers b).task (w.servers b).trace
  foreign : ∀ i message, (i, message) ∈ w.foreign → net.corrupt i

variable {net} {modes : Bool → Prop} {w w' : World C ι α β}

omit [DecidableEq α] [DecidableEq β] in
/-- Verdicts stay unforged when more is signed. -/
theorem Unforged.mono (hsigned : ∀ i message, net.Signed w i message → net.Signed w' i message)
    {V : Verifier} (h : net.Unforged modes w V) : net.Unforged modes w' V := by
  intro i mode hmode
  exact (h i mode hmode).mono (hsigned i)

/-- What has been signed stays signed. -/
theorem Step.signed (hstep : net.Step modes w w') (i : ι) (message : Bytes)
    (h : net.Signed w i message) : net.Signed w' i message := by
  cases hstep with
  | client a moment answer hV =>
    rcases h with ⟨a', hparty, hmem⟩ | hother
    · refine .inl ⟨a', hparty, ?_⟩
      -- A session's trace only grows, and the others stay as they are.
      by_cases ha : a' = a
      · subst ha
        simpa [setClient, Session.after] using .inl hmem
      · simpa [setClient, ha] using hmem
    · exact .inr hother
  | server b moment answer hV =>
    rcases h with hclient | ⟨b', hparty, hmem⟩ | hforeign
    · exact .inl hclient
    · refine .inr (.inl ⟨b', hparty, ?_⟩)
      by_cases hb : b' = b
      · subst hb
        simpa [setServer, Session.after] using .inl hmem
      · simpa [setServer, hb] using hmem
    · exact .inr (.inr hforeign)
  | foreign i' message' hi =>
    rcases h with hclient | hserver | hforeign
    · exact .inl hclient
    · exact .inr (.inl hserver)
    · exact .inr (.inr (List.mem_cons_of_mem _ hforeign))

omit [DecidableEq α] [DecidableEq β] in
theorem invariant_initial : net.Invariant modes net.initial where
  client _ := rfl
  server b := (net.server b).start_follows
  foreign i message hmem := by
    exact absurd hmem List.not_mem_nil

/-- Every step keeps the invariant. -/
theorem Invariant.step (h : net.Invariant modes w) (hstep : net.Step modes w w') :
    net.Invariant modes w' := by
  -- The verdicts of earlier polls were unforged then, and still are, since signatures stay.
  have hmono : ∀ V, net.Unforged modes w V → net.Unforged modes w' V :=
    fun V hV => hV.mono hstep.signed
  cases hstep with
  | client a moment answer hV =>
    refine ⟨fun a' => ?_, fun b => (h.server b).mono hmono, h.foreign⟩
    by_cases ha : a' = a
    · subst ha
      have hpoll := ((h.client a').poll moment hV answer).mono hmono
      simpa only [setClient, Function.update_self, Session.after] using hpoll
    · simpa only [setClient, Function.update_of_ne ha] using (h.client a').mono hmono
  | server b moment answer hV =>
    refine ⟨fun a => (h.client a).mono hmono, fun b' => ?_, h.foreign⟩
    by_cases hb : b' = b
    · subst hb
      have hpoll := ((h.server b').poll moment hV answer).mono hmono
      simpa only [setServer, Function.update_self, Session.after] using hpoll
    · simpa only [setServer, Function.update_of_ne hb] using (h.server b').mono hmono
  | foreign i message hi =>
    refine ⟨fun a => (h.client a).mono hmono, fun b => (h.server b).mono hmono, ?_⟩
    intro i' message' hmem
    rcases List.mem_cons.mp hmem with heq | hmem
    · rw [Prod.mk.injEq] at heq
      exact heq.1 ▸ hi
    · exact h.foreign i' message' hmem

/-- Every reachable world satisfies the invariant. -/
theorem Reachable.invariant (h : net.Reachable modes w) : net.Invariant modes w := by
  induction h with
  | refl => exact invariant_initial
  | tail _ hstep ih => exact ih.step hstep

/-! ## Runs of one session -/

/-- Any number of polls of one client session, all with verdicts that are unforged
at the start, lead to a reachable world. -/
theorem Reachable.client (h : net.Reachable modes w) (a : α) (moment : Moment)
    (hV : net.Unforged modes w moment.V) {answers : List Answer} {s : ClientSession C}
    (hs : (w.clients a).afterAll ((net.client a).resume moment) answers = s) :
    net.Reachable modes (setClient w a s) := by
  -- The world moves on with each poll, so the induction is over every reachable world.
  subst hs
  induction answers generalizing w with
  | nil =>
    have hsame : setClient w a (w.clients a) = w := by
      rw [setClient, Function.update_eq_self]
    exact hsame.symm ▸ h
  | cons answer answers ih =>
    have hstep : net.Step modes w _ := .client a moment answer hV
    have hnext := ih (h.tail hstep) (hV.mono hstep.signed)
    simpa only [setClient, Function.update_self, Function.update_idem,
      Session.afterAll_cons] using hnext

/-- The same for the polls of one server session. -/
theorem Reachable.server (h : net.Reachable modes w) (b : β) (moment : Moment)
    (hV : net.Unforged modes w moment.V) {answers : List Answer} {s : ServerSession C}
    (hs : (w.servers b).afterAll ((net.server b).resume moment) answers = s) :
    net.Reachable modes (setServer w b s) := by
  subst hs
  induction answers generalizing w with
  | nil =>
    have hsame : setServer w b (w.servers b) = w := by
      rw [setServer, Function.update_eq_self]
    exact hsame.symm ▸ h
  | cons answer answers ih =>
    have hstep : net.Step modes w _ := .server b moment answer hV
    have hnext := ih (h.tail hstep) (hV.mono hstep.signed)
    simpa only [setServer, Function.update_self, Function.update_idem,
      Session.afterAll_cons] using hnext

/-! ## What honest parties sign -/

/-- A party has made a statement in one of its sessions: as a client that answered a hello of
the server, or as a server that accepted the client hello. -/
def Stated (net : Network C ι α β) (modes : Bool → Prop) (w : World C ι α β) (i : ι) :
    Statement → Prop
  | .client unique hello => ∃ a serverHello publicKey packetSign clientUnique lead,
    net.clientParty a = i ∧
      (net.client a).Answered serverHello publicKey packetSign clientUnique lead ∧
      unique = serverHello.unique ∧
      hello = (net.client a).clientHello packetSign clientUnique ∧
      lead ++ (net.client a).answerEvents serverHello publicKey packetSign clientUnique <+:
        (w.clients a).trace
  | .server serverHello clientHello => ∃ b packetSign unique publicKey signature n,
    net.serverParty b = i ∧
      (net.server b).Accepted (net.Unforged modes w) packetSign unique clientHello.hello publicKey
        signature ∧
      clientHello.quantumInsecure = (net.server b).connSign.quantumInsecure ∧
      clientHello.bytes = signedHelloWire signature clientHello.hello ∧
      serverHello = (net.server b).serverHello packetSign unique ∧
      (w.servers b).trace = (net.server b).loopEvents serverHello n ++
        (net.server b).acceptEvents ((net.server b).pendingAfter packetSign unique)
          clientHello.bytes

omit [DecidableEq α] [DecidableEq β] in
/-- An honest party signs the messages of its statements, and nothing else. -/
theorem Invariant.exists_stated (h : net.Invariant modes w) {i : ι} (hi : ¬ net.corrupt i)
    {message : Bytes} (hsigned : net.Signed w i message) :
    ∃ statement : Statement, net.Stated modes w i statement ∧ statement.message = message := by
  rcases hsigned with ⟨a, hparty, hmem⟩ | ⟨b, hparty, hmem⟩ | hforeign
  · obtain ⟨serverHello, publicKey, packetSign, clientUnique, lead, hanswered, rfl, htrace⟩ :=
      (h.client a).script.signed_of_mem hmem
    exact ⟨.client serverHello.unique _, ⟨a, serverHello, publicKey, packetSign, clientUnique, lead,
      hparty, hanswered, rfl, rfl, htrace⟩, rfl⟩
  · obtain ⟨packetSign, unique, hello, publicKey, signature, n, haccepted, rfl, htrace⟩ :=
      (h.server b).script.signed_of_mem hmem
    exact ⟨.server _ ⟨_, _, hello, haccepted.acceptedHello⟩, ⟨b, packetSign, unique, publicKey,
      signature, n, hparty, haccepted, rfl, rfl, rfl, htrace⟩, rfl⟩
  · exact absurd (h.foreign i _ hforeign) hi

omit [DecidableEq α] [DecidableEq β] in
/-- A signature under the key of an honest party that is accepted for a statement has been made
for it, in a session of its role. -/
theorem Invariant.stated_of_accepts (h : net.Invariant modes w) {i : ι} (hi : ¬ net.corrupt i)
    {V : Verifier} {mode : Bool} (hV : net.Unforged modes w V) (hmode : modes mode)
    {statement : Statement} {signature : Bytes}
    (haccepts : (ConnVerify.mk (net.publicKey i) mode).Accepts V signature statement.message) :
    net.Stated modes w i statement := by
  refine Statement.stated_of_accepts ?_ haccepts
  exact (hV i mode hmode).mono fun _ => h.exists_stated hi

omit [DecidableEq α] [DecidableEq β] in
/-- An honest party signs two hellos only in a server session, which sent the first
and accepted the second. -/
theorem Invariant.signed_hellos (h : net.Invariant modes w) {i : ι} (hi : ¬ net.corrupt i)
    {serverHello : ServerHello} {signature : Bytes} {hello : ClientHello}
    (hsigned : net.Signed w i (helloWire serverHello ++ signedHelloWire signature hello)) :
    ∃ b packetSign unique publicKey n, net.serverParty b = i ∧
      (net.server b).Accepted (net.Unforged modes w) packetSign unique hello publicKey signature ∧
      serverHello = (net.server b).serverHello packetSign unique ∧
      (w.servers b).trace = (net.server b).loopEvents serverHello n ++
        (net.server b).acceptEvents ((net.server b).pendingAfter packetSign unique)
          (signedHelloWire signature hello) := by
  obtain ⟨statement, hstated, hmessage⟩ := h.exists_stated hi hsigned
  cases statement with
  | client unique hello' =>
    exact absurd hmessage (clientMessage_ne_serverMessage (length_signedHelloWire_ne _ _))
  | server serverHello' clientHello =>
    obtain ⟨b, packetSign, unique, publicKey, signature', n, hparty, haccepted, -, hbytes, hhello,
      htrace⟩ := hstated
    obtain ⟨rfl, hwire⟩ := serverMessage_inj hmessage
    obtain ⟨rfl, rfl⟩ := signedHelloWire_inj (hbytes.symm.trans hwire)
    exact ⟨b, packetSign, unique, publicKey, n, hparty, haccepted, hhello, hwire ▸ htrace⟩

omit [DecidableEq α] [DecidableEq β] in
/-- An honest party signs a client hello behind a challenge value only in a client
session, which made that hello in answer to a server hello with that value. -/
theorem Invariant.signed_clientHello (h : net.Invariant modes w) {i : ι} (hi : ¬ net.corrupt i)
    {unique : UInt64} {hello : ClientHello}
    (hsigned : net.Signed w i (u64ToBeBytes unique ++ encodeClientHello hello)) :
    ∃ a serverHello publicKey packetSign clientUnique lead, net.clientParty a = i ∧
      (net.client a).Answered serverHello publicKey packetSign clientUnique lead ∧
      unique = serverHello.unique ∧
      hello = (net.client a).clientHello packetSign clientUnique ∧
      lead ++ (net.client a).answerEvents serverHello publicKey packetSign clientUnique <+:
        (w.clients a).trace := by
  obtain ⟨statement, hstated, hmessage⟩ := h.exists_stated hi hsigned
  obtain rfl : statement = .client unique hello := Statement.message_injective hmessage
  exact hstated

end Network

end Axsh

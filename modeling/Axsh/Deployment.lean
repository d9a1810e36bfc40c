/-
# Everything together

The handshakes of a network, and the programs that run on the streams the handshakes return.
A program is opened once its session is done, at any time after, and from then on takes its
steps between all the others. The server's session may be done before the client's, or the
other way around.

Two assumptions are added to those about handshakes: the packet keys are fresh, and nobody
forges a signature under the packet key of a session. Then a server session that admitted the
key of an honest party runs lines that were typed in one session of that party, and what a
client session reads is the output of the server session it agrees with.
-/

import Axsh.Connection
import Axsh.Programs.Transcript
import Axsh.Relay

set_option autoImplicit false

namespace Axsh

open PayloadStream

variable {C : Crypto} {ι α β : Type}

namespace Network

/-- The packet keys are made afresh: each is new, and no two sessions have the same. -/
structure FreshKeys (net : Network C ι α β) : Prop where
  client : ∀ a packetSign, (net.client a).newPacketSign = .ok packetSign →
    packetSign = .new packetSign.keyPair
  server : ∀ b packetSign, (net.server b).newPacketSign = .ok packetSign →
    packetSign = .new packetSign.keyPair
  clients : net.FreshPacketKeys
  servers : ∀ b b' packetSign packetSign', (net.server b).newPacketSign = .ok packetSign →
    (net.server b').newPacketSign = .ok packetSign' →
    packetSign.publicKeyBytes = packetSign'.publicKeyBytes → b = b'
  disjoint : ∀ a b packetSign packetSign', (net.client a).newPacketSign = .ok packetSign →
    (net.server b).newPacketSign = .ok packetSign' →
    packetSign.publicKeyBytes ≠ packetSign'.publicKeyBytes

/-- A session has this packet key. -/
def PacketKey (net : Network C ι α β) (key : Fixed ed25519PublicKeyLen) : Prop :=
  (∃ a packetSign, (net.client a).newPacketSign = .ok packetSign ∧
    packetSign.publicKeyBytes = key) ∨
  ∃ b packetSign, (net.server b).newPacketSign = .ok packetSign ∧ packetSign.publicKeyBytes = key

end Network

/-- The world of the handshakes, and the programs of the sessions, where they are opened. -/
structure Deployment (C : Crypto) (ι α β : Type) where
  world : World C ι α β
  clients : α → Option (ClientProgram C)
  servers : β → Option (ServerProgram C)

namespace Deployment

/-- No session has been polled. -/
def initial (net : Network C ι α β) : Deployment C ι α β :=
  ⟨net.initial, fun _ => none, fun _ => none⟩

/-- A program has signed this input with its packet key. -/
def PacketSigned (d : Deployment C ι α β) (key : Fixed ed25519PublicKeyLen) (input : Bytes) :
    Prop :=
  (∃ a c, d.clients a = some c ∧ c.endpoint.publicKey = key ∧ input ∈ c.endpoint.signed) ∨
    ∃ b s, d.servers b = some s ∧ s.endpoint.publicKey = key ∧ input ∈ s.endpoint.signed

/-- Verdicts under which no packet of a session is forged. -/
def Unforged (net : Network C ι α β) (d : Deployment C ι α β) (V : Verifier) : Prop :=
  ∀ key, net.PacketKey key → V.Ed25519Unforgeable key.1 (d.PacketSigned key)

variable [DecidableEq α] [DecidableEq β]

/-- The deployment with another state of a client program. -/
def setClient (d : Deployment C ι α β) (a : α) (c : ClientProgram C) : Deployment C ι α β :=
  { d with clients := Function.update d.clients a (some c) }

/-- The deployment with another state of a server program. -/
def setServer (d : Deployment C ι α β) (b : β) (s : ServerProgram C) : Deployment C ι α β :=
  { d with servers := Function.update d.servers b (some s) }

omit [DecidableEq β] in
@[simp] theorem setClient_clients_self (d : Deployment C ι α β) (a : α) (c : ClientProgram C) :
    (d.setClient a c).clients a = some c := Function.update_self ..

omit [DecidableEq β] in
theorem setClient_clients_of_ne (d : Deployment C ι α β) {a a' : α} (c : ClientProgram C)
    (h : a' ≠ a) : (d.setClient a c).clients a' = d.clients a' := Function.update_of_ne h ..

omit [DecidableEq α] in
@[simp] theorem setServer_servers_self (d : Deployment C ι α β) (b : β) (s : ServerProgram C) :
    (d.setServer b s).servers b = some s := Function.update_self ..

omit [DecidableEq α] in
theorem setServer_servers_of_ne (d : Deployment C ι α β) {b b' : β} (s : ServerProgram C)
    (h : b' ≠ b) : (d.setServer b s).servers b' = d.servers b' := Function.update_of_ne h ..

/-- A step of a handshake, the start of a program, or a step of one. -/
inductive Step (net : Network C ι α β) (modes : Bool → Prop) (d : Deployment C ι α β) :
    Deployment C ι α β → Prop
  | handshake (world : World C ι α β) (hstep : net.Step modes d.world world) :
      Step net modes d { d with world }
  | openClient (a : α) (stream : ClientStream C) (hdone : (d.world.clients a).task = .done stream)
      (hclosed : d.clients a = none) :
      Step net modes d (d.setClient a (.start stream.transport))
  | openServer (b : β) (stream : ServerStream C) (hdone : (d.world.servers b).task = .done stream)
      (hclosed : d.servers b = none) :
      Step net modes d (d.setServer b (.start stream.transport))
  | client (a : α) (c c' : ClientProgram C) (hopen : d.clients a = some c)
      (hstep : ClientProgram.Step (d.Unforged net) c c') : Step net modes d (d.setClient a c')
  | server (b : β) (s s' : ServerProgram C) (hopen : d.servers b = some s)
      (hstep : ServerProgram.Step (d.Unforged net) s s') : Step net modes d (d.setServer b s')

/-- The deployments that come of any number of steps. -/
def Reachable (net : Network C ι α β) (modes : Bool → Prop) (d : Deployment C ι α β) : Prop :=
  Relation.ReflTransGen (Step net modes) (initial net) d

/-- No program has signed 2^64 packets. -/
structure Short (d : Deployment C ι α β) : Prop where
  clients : ∀ a c, d.clients a = some c → c.endpoint.signed.length < 2 ^ 64
  servers : ∀ b s, d.servers b = some s → s.endpoint.signed.length < 2 ^ 64

/-! ## Programs that are open, and those that may be -/

/-- What the program of a client session is, or may still be. -/
def ClientMay (net : Network C ι α β) (d : Deployment C ι α β) (a : α) (c : ClientProgram C) :
    Prop :=
  match d.clients a with
  | some c' => c = c'
  | none => ∃ packetSign key now, (net.client a).newPacketSign = .ok packetSign ∧
      c = .start (.new packetSign (.new key now))

/-- What the program of a server session is, or may still be. -/
def ServerMay (net : Network C ι α β) (d : Deployment C ι α β) (b : β) (s : ServerProgram C) :
    Prop :=
  match d.servers b with
  | some s' => s = s'
  | none => ∃ packetSign key now, (net.server b).newPacketSign = .ok packetSign ∧
      s = .start (.new packetSign (.new key now))

/-- A client program runs on the stream that its handshake returned. -/
structure ClientOpen (w : World C ι α β) (a : α) (c : ClientProgram C) (stream : ClientStream C) :
    Prop where
  done : (w.clients a).task = .done stream
  keys : (Endpoint.new stream.transport).SameKeys c.endpoint

/-- So does a server program. -/
structure ServerOpen (w : World C ι α β) (b : β) (s : ServerProgram C) (stream : ServerStream C) :
    Prop where
  done : (w.servers b).task = .done stream
  keys : (Endpoint.new stream.transport).SameKeys s.endpoint

/-- What holds of every reachable deployment. Of any two programs, open or not, the commands of
the server are lines of the client if it verifies packets with the client's key, and the other
way around for what the client reads. -/
structure Invariant (net : Network C ι α β) (modes : Bool → Prop) (d : Deployment C ι α β) :
    Prop where
  world : net.Invariant modes d.world
  client : ∀ a c, d.clients a = some c → ∃ stream, ClientOpen d.world a c stream
  server : ∀ b s, d.servers b = some s → ∃ stream, ServerOpen d.world b s stream
  serves : ∀ b s, d.servers b = some s → s.Serves
  commanded : ∀ a b c s, d.ClientMay net a c → d.ServerMay net b s →
    s.endpoint.peerKey = c.endpoint.publicKey → Commanded c s
  replied : ∀ a b c s, d.ClientMay net a c → d.ServerMay net b s →
    c.endpoint.peerKey = s.endpoint.publicKey → Replied c s

end Deployment

namespace Network

variable {net : Network C ι α β} {modes : Bool → Prop} {w w' : World C ι α β}

/-- The stream that a client session is done with. -/
theorem Invariant.client_transport (h : net.Invariant modes w) {a : α} {stream : ClientStream C}
    (hdone : (w.clients a).task = .done stream) :
    ∃ packetSign key now, (net.client a).newPacketSign = .ok packetSign ∧
      stream.transport = .new packetSign (.new key now) := by
  have hclient := h.client a
  rw [hdone] at hclient
  obtain ⟨V, now, hello, publicKey, packetSign, unique, lead, signature, -, hanswered, -, rfl, -⟩ :=
    hclient
  exact ⟨packetSign, _, now, hanswered.newPacketSign, rfl⟩

/-- The stream that a server session is done with. -/
theorem Invariant.server_transport (h : net.Invariant modes w) {b : β} {stream : ServerStream C}
    (hdone : (w.servers b).task = .done stream) :
    ∃ packetSign now, (net.server b).newPacketSign = .ok packetSign ∧
      stream.transport = .new packetSign (.new stream.clientHello.packetSignPublicKey now) := by
  have hserver := h.server b
  rw [hdone] at hserver
  obtain ⟨now, packetSign, unique, hello, publicKey, signature, n, haccepted, rfl, -⟩ := hserver
  exact ⟨packetSign, now, haccepted.started.newPacketSign, rfl⟩

variable [DecidableEq α] [DecidableEq β]

/-- A session that is done stays done. -/
theorem Step.client_done (hstep : net.Step modes w w') {a : α} {stream : ClientStream C}
    (hdone : (w.clients a).task = .done stream) : (w'.clients a).task = .done stream := by
  cases hstep with
  | client a' moment answer hV =>
    by_cases ha : a = a'
    · subst ha
      rw [setClient_clients_self, Session.after, hdone]
      rfl
    · simpa only [setClient, Function.update_of_ne ha] using hdone
  | server | foreign => exact hdone

theorem Step.server_done (hstep : net.Step modes w w') {b : β} {stream : ServerStream C}
    (hdone : (w.servers b).task = .done stream) : (w'.servers b).task = .done stream := by
  cases hstep with
  | server b' moment answer hV =>
    by_cases hb : b = b'
    · subst hb
      rw [setServer_servers_self, Session.after, hdone]
      rfl
    · simpa only [setServer, Function.update_of_ne hb] using hdone
  | client | foreign => exact hdone

end Network

namespace Deployment

variable {net : Network C ι α β} {modes : Bool → Prop} {d d' : Deployment C ι α β}

theorem clientMay_some {a : α} {c c' : ClientProgram C} (hopen : d.clients a = some c') :
    d.ClientMay net a c ↔ c = c' := by
  rw [ClientMay, hopen]

theorem serverMay_some {b : β} {s s' : ServerProgram C} (hopen : d.servers b = some s') :
    d.ServerMay net b s ↔ s = s' := by
  rw [ServerMay, hopen]

/-- The packet key of a client session is that of its program. -/
theorem Invariant.client_key (h : d.Invariant net modes) {a : α} {c : ClientProgram C}
    (hc : d.ClientMay net a c) :
    ∃ packetSign, (net.client a).newPacketSign = .ok packetSign ∧
      packetSign.publicKeyBytes = c.endpoint.publicKey := by
  match hopen : d.clients a with
  | none =>
    rw [ClientMay, hopen] at hc
    obtain ⟨packetSign, key, now, hnew, rfl⟩ := hc
    exact ⟨packetSign, hnew, rfl⟩
  | some c' =>
    obtain rfl := (clientMay_some hopen).mp hc
    obtain ⟨stream, hstream⟩ := h.client a c hopen
    obtain ⟨packetSign, key, now, hnew, htransport⟩ := h.world.client_transport hstream.done
    refine ⟨packetSign, hnew, ?_⟩
    rw [hstream.keys.publicKey, Endpoint.new, htransport]
    rfl

theorem Invariant.server_key (h : d.Invariant net modes) {b : β} {s : ServerProgram C}
    (hs : d.ServerMay net b s) :
    ∃ packetSign, (net.server b).newPacketSign = .ok packetSign ∧
      packetSign.publicKeyBytes = s.endpoint.publicKey := by
  match hopen : d.servers b with
  | none =>
    rw [ServerMay, hopen] at hs
    obtain ⟨packetSign, key, now, hnew, rfl⟩ := hs
    exact ⟨packetSign, hnew, rfl⟩
  | some s' =>
    obtain rfl := (serverMay_some hopen).mp hs
    obtain ⟨stream, hstream⟩ := h.server b s hopen
    obtain ⟨packetSign, now, hnew, htransport⟩ := h.world.server_transport hstream.done
    refine ⟨packetSign, hnew, ?_⟩
    rw [hstream.keys.publicKey, Endpoint.new, htransport]
    rfl

/-- Keys tell sessions apart, so a packet key has only the signatures of its own program. -/
theorem Invariant.client_unforged (h : d.Invariant net modes) (hfresh : net.FreshKeys) {a : α}
    {c : ClientProgram C} (hc : d.ClientMay net a c) {V : Verifier} (hV : d.Unforged net V) :
    V.Ed25519Unforgeable c.endpoint.publicKey.1 (· ∈ c.endpoint.signed) := by
  obtain ⟨packetSign, hnew, hkey⟩ := h.client_key hc
  intro message signature hverdict
  rcases hV _ (.inl ⟨a, packetSign, hnew, hkey⟩) message signature hverdict with
    ⟨a', c', hopen, hsame, hmem⟩ | ⟨b, s, hopen, hsame, -⟩
  · obtain ⟨packetSign', hnew', hkey'⟩ := h.client_key ((clientMay_some hopen).mpr rfl)
    obtain rfl := hfresh.clients a a' _ _ hnew hnew' (hkey.trans (hkey'.trans hsame).symm)
    obtain rfl := (clientMay_some hopen).mp hc
    exact hmem
  · obtain ⟨packetSign', hnew', hkey'⟩ := h.server_key ((serverMay_some hopen).mpr rfl)
    exact absurd (hkey.trans (hkey'.trans hsame).symm) (hfresh.disjoint a b _ _ hnew hnew')

theorem Invariant.server_unforged (h : d.Invariant net modes) (hfresh : net.FreshKeys) {b : β}
    {s : ServerProgram C} (hs : d.ServerMay net b s) {V : Verifier} (hV : d.Unforged net V) :
    V.Ed25519Unforgeable s.endpoint.publicKey.1 (· ∈ s.endpoint.signed) := by
  obtain ⟨packetSign, hnew, hkey⟩ := h.server_key hs
  intro message signature hverdict
  rcases hV _ (.inr ⟨b, packetSign, hnew, hkey⟩) message signature hverdict with
    ⟨a, c, hopen, hsame, -⟩ | ⟨b', s', hopen, hsame, hmem⟩
  · obtain ⟨packetSign', hnew', hkey'⟩ := h.client_key ((clientMay_some hopen).mpr rfl)
    exact absurd (hkey'.trans hsame |>.trans hkey.symm) (hfresh.disjoint a b _ _ hnew' hnew)
  · obtain ⟨packetSign', hnew', hkey'⟩ := h.server_key ((serverMay_some hopen).mpr rfl)
    obtain rfl := hfresh.servers b b' _ _ hnew hnew' (hkey.trans (hkey'.trans hsame).symm)
    obtain rfl := (serverMay_some hopen).mp hs
    exact hmem

theorem invariant_initial (hfresh : net.FreshKeys) : (initial net).Invariant net modes where
  world := Network.invariant_initial
  client := nofun
  server := nofun
  serves := nofun
  commanded := by
    rintro a b c s ⟨packetSign, key, now, hnew, rfl⟩ ⟨serverSign, key', now', -, rfl⟩ hkey
    obtain rfl : key' = packetSign.publicKeyBytes := hkey
    exact commanded_start (hfresh.client a packetSign hnew)
  replied := by
    rintro a b c s ⟨packetSign, key, now, -, rfl⟩ ⟨serverSign, key', now', hnew, rfl⟩ hkey
    obtain rfl : key = serverSign.publicKeyBytes := hkey
    exact replied_start (hfresh.server b serverSign hnew)

/-! ## Steps -/

variable [DecidableEq α] [DecidableEq β]

omit [DecidableEq β] in
theorem clientMay_setClient {a a' : α} {c c' : ClientProgram C} :
    (d.setClient a c).ClientMay net a' c' ↔
      if a' = a then c' = c else d.ClientMay net a' c' := by
  unfold ClientMay
  by_cases ha : a' = a
  · simp only [ha, setClient_clients_self, if_true]
  · simp only [ha, setClient_clients_of_ne d c ha, if_false]

omit [DecidableEq α] in
theorem serverMay_setServer {b b' : β} {s s' : ServerProgram C} :
    (d.setServer b s).ServerMay net b' s' ↔
      if b' = b then s' = s else d.ServerMay net b' s' := by
  unfold ServerMay
  by_cases hb : b' = b
  · simp only [hb, setServer_servers_self, if_true]
  · simp only [hb, setServer_servers_of_ne d s hb, if_false]

/-- A step of a deployment takes no signature back. -/
theorem Step.short (hstep : Step net modes d d') (h : d'.Short) : d.Short := by
  refine ⟨fun a c hopen => ?_, fun b s hopen => ?_⟩
  · cases hstep with
    | handshake | openServer | server => exact h.clients a c hopen
    | openClient a' stream hdone hclosed =>
      have ha : a ≠ a' := fun ha => by rw [ha, hclosed] at hopen; cases hopen
      exact h.clients a c (by rwa [setClient_clients_of_ne d _ ha])
    | client a' c₀ c' hopen' hstep =>
      by_cases ha : a = a'
      · subst ha
        obtain rfl := Option.some.inj (hopen.symm.trans hopen')
        exact hstep.length_signed_le.trans_lt (h.clients a c' (by simp))
      · exact h.clients a c (by rwa [setClient_clients_of_ne d _ ha])
  · cases hstep with
    | handshake | openClient | client => exact h.servers b s hopen
    | openServer b' stream hdone hclosed =>
      have hb : b ≠ b' := fun hb => by rw [hb, hclosed] at hopen; cases hopen
      exact h.servers b s (by rwa [setServer_servers_of_ne d _ hb])
    | server b' s₀ s' hopen' hstep =>
      by_cases hb : b = b'
      · subst hb
        obtain rfl := Option.some.inj (hopen.symm.trans hopen')
        exact hstep.length_signed_le.trans_lt (h.servers b s' (by simp))
      · exact h.servers b s (by rwa [setServer_servers_of_ne d _ hb])

omit [DecidableEq α] [DecidableEq β] in
/-- Programs that may be the ones of a session have not signed 2^64 packets. -/
theorem Short.client (h : d.Short) {a : α} {c : ClientProgram C} (hc : d.ClientMay net a c) :
    c.endpoint.signed.length < 2 ^ 64 := by
  match hopen : d.clients a with
  | none =>
    rw [ClientMay, hopen] at hc
    obtain ⟨packetSign, key, now, -, rfl⟩ := hc
    exact Nat.two_pow_pos 64
  | some c' =>
    obtain rfl := (clientMay_some hopen).mp hc
    exact h.clients a c hopen

omit [DecidableEq α] [DecidableEq β] in
theorem Short.server (h : d.Short) {b : β} {s : ServerProgram C} (hs : d.ServerMay net b s) :
    s.endpoint.signed.length < 2 ^ 64 := by
  match hopen : d.servers b with
  | none =>
    rw [ServerMay, hopen] at hs
    obtain ⟨packetSign, key, now, -, rfl⟩ := hs
    exact Nat.two_pow_pos 64
  | some s' =>
    obtain rfl := (serverMay_some hopen).mp hs
    exact h.servers b s hopen

omit [DecidableEq β] in
/-- A client program that is opened is one that might have been there. -/
theorem Invariant.openClient (h : d.Invariant net modes) {a : α} {stream : ClientStream C}
    (hdone : (d.world.clients a).task = .done stream) (hclosed : d.clients a = none) :
    (d.setClient a (.start stream.transport)).Invariant net modes := by
  obtain ⟨packetSign, key, now, hnew, htransport⟩ := h.world.client_transport hdone
  have hmay : ∀ a' c, (d.setClient a (.start stream.transport)).ClientMay net a' c →
      d.ClientMay net a' c := by
    intro a' c hc
    rw [clientMay_setClient] at hc
    split_ifs at hc with ha
    · subst ha hc
      rw [ClientMay, hclosed]
      exact ⟨packetSign, key, now, hnew, by rw [htransport]⟩
    · exact hc
  refine ⟨h.world, fun a' c hopen => ?_, h.server, h.serves,
    fun a' b c s hc hs => h.commanded a' b c s (hmay a' c hc) hs,
    fun a' b c s hc hs => h.replied a' b c s (hmay a' c hc) hs⟩
  by_cases ha : a' = a
  · subst ha
    rw [setClient_clients_self] at hopen
    obtain rfl := Option.some.inj hopen
    refine ⟨stream, hdone, ?_, rfl, rfl⟩
    rw [ClientProgram.start, Endpoint.new, htransport]
    exact bounded_new _ _
  · rw [setClient_clients_of_ne d _ ha] at hopen
    exact h.client a' c hopen

omit [DecidableEq α] in
theorem Invariant.openServer (h : d.Invariant net modes) (hfresh : net.FreshKeys) {b : β}
    {stream : ServerStream C}
    (hdone : (d.world.servers b).task = .done stream) (hclosed : d.servers b = none) :
    (d.setServer b (.start stream.transport)).Invariant net modes := by
  obtain ⟨packetSign, now, hnew, htransport⟩ := h.world.server_transport hdone
  have hmay : ∀ b' s, (d.setServer b (.start stream.transport)).ServerMay net b' s →
      d.ServerMay net b' s := by
    intro b' s hs
    rw [serverMay_setServer] at hs
    split_ifs at hs with hb
    · subst hb hs
      rw [ServerMay, hclosed]
      exact ⟨packetSign, _, now, hnew, by rw [htransport]⟩
    · exact hs
  have hbounded : stream.transport.Bounded := htransport ▸ bounded_new _ _
  have hstart : ∀ b' s, (d.setServer b (.start stream.transport)).servers b' = some s →
      d.servers b' = some s ∨ b' = b ∧ s = .start stream.transport := by
    intro b' s hopen
    by_cases hb : b' = b
    · subst hb
      rw [setServer_servers_self] at hopen
      exact .inr ⟨rfl, (Option.some.inj hopen).symm⟩
    · rw [setServer_servers_of_ne d _ hb] at hopen
      exact .inl hopen
  refine ⟨h.world, h.client, fun b' s hopen => ?_, fun b' s hopen => ?_,
    fun a b' c s hc hs => h.commanded a b' c s hc (hmay b' s hs),
    fun a b' c s hc hs => h.replied a b' c s hc (hmay b' s hs)⟩
  · rcases hstart b' s hopen with hopen | ⟨rfl, rfl⟩
    · exact h.server b' s hopen
    · exact ⟨stream, hdone, hbounded, rfl, rfl⟩
  · rcases hstart b' s hopen with hopen | ⟨rfl, rfl⟩
    · exact h.serves b' s hopen
    · rw [htransport, hfresh.server _ packetSign hnew]
      exact ServerProgram.serves_new _ _

omit [DecidableEq β] in
/-- A step of a client program. -/
theorem Invariant.clientStep (h : d.Invariant net modes) (hfresh : net.FreshKeys) (hshort : d.Short)
    {a : α} {c c' : ClientProgram C} (hopen : d.clients a = some c)
    (hstep : ClientProgram.Step (d.Unforged net) c c') :
    (d.setClient a c').Invariant net modes := by
  have hc : d.ClientMay net a c := (clientMay_some hopen).mpr rfl
  obtain ⟨stream, hdone, hkeys⟩ := h.client a c hopen
  have hsame := hstep.sameKeys hkeys.bounded
  refine ⟨h.world, fun a' c₀ hopen' => ?_, h.server, h.serves, fun a' b c₀ s hc₀ hs hkey => ?_,
    fun a' b c₀ s hc₀ hs hkey => ?_⟩
  · by_cases ha : a' = a
    · subst ha
      rw [setClient_clients_self] at hopen'
      obtain rfl := Option.some.inj hopen'
      exact ⟨stream, hdone, hsame.bounded, hsame.publicKey.trans hkeys.publicKey,
        hsame.peerKey.trans hkeys.peerKey⟩
    · rw [setClient_clients_of_ne d _ ha] at hopen'
      exact h.client a' c₀ hopen'
  · rw [clientMay_setClient] at hc₀
    split_ifs at hc₀ with ha
    · subst ha hc₀
      exact (h.commanded a' b c s hc hs (hkey.trans hsame.publicKey)).client hstep
        (hshort.client hc)
    · exact h.commanded a' b c₀ s hc₀ hs hkey
  · rw [clientMay_setClient] at hc₀
    split_ifs at hc₀ with ha
    · subst ha hc₀
      -- The verdicts are unforged for the key that the client verifies with.
      exact (h.replied a' b c s hc hs (hsame.peerKey.symm.trans hkey)).client hstep
        (hshort.server hs) fun V hV => h.server_unforged hfresh hs hV
    · exact h.replied a' b c₀ s hc₀ hs hkey

omit [DecidableEq α] in
/-- A step of a server program. -/
theorem Invariant.serverStep (h : d.Invariant net modes) (hfresh : net.FreshKeys) (hshort : d.Short)
    {b : β} {s s' : ServerProgram C} (hopen : d.servers b = some s)
    (hstep : ServerProgram.Step (d.Unforged net) s s')
    (hcount : s'.endpoint.signed.length < 2 ^ 64) : (d.setServer b s').Invariant net modes := by
  have hs : d.ServerMay net b s := (serverMay_some hopen).mpr rfl
  obtain ⟨stream, hdone, hkeys⟩ := h.server b s hopen
  have hsame := hstep.sameKeys hkeys.bounded
  have hserves := (h.serves b s hopen).step hstep
  refine ⟨h.world, h.client, fun b' s₀ hopen' => ?_, fun b' s₀ hopen' => ?_,
    fun a b' c s₀ hc hs₀ hkey => ?_, fun a b' c s₀ hc hs₀ hkey => ?_⟩
  · by_cases hb : b' = b
    · subst hb
      rw [setServer_servers_self] at hopen'
      obtain rfl := Option.some.inj hopen'
      exact ⟨stream, hdone, hsame.bounded, hsame.publicKey.trans hkeys.publicKey,
        hsame.peerKey.trans hkeys.peerKey⟩
    · rw [setServer_servers_of_ne d _ hb] at hopen'
      exact h.server b' s₀ hopen'
  · by_cases hb : b' = b
    · subst hb
      rw [setServer_servers_self] at hopen'
      exact Option.some.inj hopen' ▸ hserves
    · rw [setServer_servers_of_ne d _ hb] at hopen'
      exact h.serves b' s₀ hopen'
  · rw [serverMay_setServer] at hs₀
    split_ifs at hs₀ with hb
    · subst hb hs₀
      exact (h.commanded a b' c s hc hs (hsame.peerKey.symm.trans hkey)).server hstep
        (hshort.client hc) fun V hV => h.client_unforged hfresh hc hV
    · exact h.commanded a b' c s₀ hc hs₀ hkey
  · rw [serverMay_setServer] at hs₀
    split_ifs at hs₀ with hb
    · subst hb hs₀
      exact (h.replied a b' c s hc hs (hkey.trans hsame.publicKey)).server hstep hcount
    · exact h.replied a b' c s₀ hc hs₀ hkey

/-- Every step keeps the invariant. -/
theorem Invariant.step (h : d.Invariant net modes) (hfresh : net.FreshKeys)
    (hstep : Step net modes d d') (hshort : d'.Short) : d'.Invariant net modes := by
  have hshort' := hstep.short hshort
  cases hstep with
  | handshake world hstep =>
    refine ⟨h.world.step hstep, fun a c hopen => ?_, fun b s hopen => ?_, h.serves, h.commanded,
      h.replied⟩
    · obtain ⟨stream, hdone, hkeys⟩ := h.client a c hopen
      exact ⟨stream, hstep.client_done hdone, hkeys⟩
    · obtain ⟨stream, hdone, hkeys⟩ := h.server b s hopen
      exact ⟨stream, hstep.server_done hdone, hkeys⟩
  | openClient a stream hdone hclosed => exact h.openClient hdone hclosed
  | openServer b stream hdone hclosed => exact h.openServer hfresh hdone hclosed
  | client a c c' hopen hstep => exact h.clientStep hfresh hshort' hopen hstep
  | server b s s' hopen hstep =>
    exact h.serverStep hfresh hshort' hopen hstep (hshort.servers b s' (by simp))

/-- Every deployment that is reached without 2^64 packets satisfies the invariant. -/
theorem Reachable.invariant (hreach : Reachable net modes d) (hfresh : net.FreshKeys)
    (hshort : d.Short) : d.Invariant net modes := by
  induction hreach with
  | refl => exact invariant_initial hfresh
  | tail _ hstep ih => exact (ih (hstep.short hshort)).step hfresh hstep hshort

end Deployment

end Axsh

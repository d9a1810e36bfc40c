/-
# Admission by the server

A server session completes only with a client hello that the holder of an
authorized key has signed for that session. With challenge values that differ and
hellos that clients make afresh, a hello completes one session at most.
-/

import Axsh.Network.Handshake

set_option autoImplicit false

namespace Axsh

namespace Network

variable {C : Crypto} {ι α β : Type} {net : Network C ι α β} {modes : Bool → Prop}
  {w : World C ι α β}

/-- The sessions of a server draw different challenge values. -/
def DistinctUniques (net : Network C ι α β) (s : ι) : Prop :=
  ∀ b b' unique, net.serverParty b = s → net.serverParty b' = s →
    (net.server b).randomU64 = .ok unique → (net.server b').randomU64 = .ok unique → b = b'

/-- Different client sessions make different hellos. -/
def FreshHellos (net : Network C ι α β) : Prop :=
  ∀ a a' packetSign packetSign' unique unique',
    (net.client a).newPacketSign = .ok packetSign → (net.client a).randomU64 = .ok unique →
    (net.client a').newPacketSign = .ok packetSign' → (net.client a').randomU64 = .ok unique' →
    (net.client a).clientHello packetSign unique = (net.client a').clientHello packetSign' unique' →
      a = a'

/-- The holder of the key that a server admitted a hello with has signed that hello
for the session's challenge value. -/
theorem signed_of_accepted {b : β}
    (hmode : modes (net.server b).connSign.quantumInsecure) {packetSign : PacketSign C}
    {unique : UInt64} {hello : ClientHello} {signature : Bytes} {i : ι}
    (haccepted : (net.server b).Accepted (net.Unforged modes w) packetSign unique hello
      (net.publicKey i) signature) :
    net.Signed w i (u64ToBeBytes unique ++ encodeClientHello hello) := by
  obtain ⟨V, hV, hadmits⟩ := haccepted.admits
  exact hadmits.accepts.signed (hV i _ hmode)

/-- Why a session with the challenge value `unique` completes with `hello`: the key
that its digest stands for is authorized, and whoever holds that key has signed it
for this session. An honest holder made it in a session of its own. -/
structure Admission (net : Network C ι α β) (w : World C ι α β)
    (authorized : Fixed sha256DigestLen → Option Bytes) (unique : UInt64) (hello : ClientHello)
    (publicKey : Bytes) : Prop where
  authorized : authorized hello.connSignPublicKeySha256 = some publicKey
  digest : hello.connSignPublicKeySha256 = C.sha256 publicKey
  signed : ∀ i, net.publicKey i = publicKey →
    net.Signed w i (u64ToBeBytes unique ++ encodeClientHello hello)
  chosen : ∀ i, net.publicKey i = publicKey → ¬ net.corrupt i →
    ∃ a packetSign clientUnique, net.clientParty a = i ∧
      (net.client a).newPacketSign = .ok packetSign ∧
      (net.client a).randomU64 = .ok clientUnique ∧
      hello = (net.client a).clientHello packetSign clientUnique

theorem Invariant.admission (h : net.Invariant modes w) {b : β}
    (hmode : modes (net.server b).connSign.quantumInsecure)
    (hkeys : ∀ digest key, (net.server b).authorizedKeys digest = some key →
      digest = C.sha256 key)
    {stream : ServerStream C} (hdone : (w.servers b).task = .done stream) :
    ∃ unique publicKey, (net.server b).randomU64 = .ok unique ∧
      net.Admission w (net.server b).authorizedKeys unique stream.clientHello publicKey := by
  have hserver := h.server b
  rw [hdone] at hserver
  -- The invariant says how an established stream came about: a client hello was accepted.
  obtain ⟨now, packetSign, unique, hello, publicKey, signature, n, haccepted, rfl, -⟩ := hserver
  obtain ⟨V, hV, hadmits⟩ := haccepted.admits
  have hsigned : ∀ i, net.publicKey i = publicKey →
      net.Signed w i (u64ToBeBytes unique ++ encodeClientHello hello) := by
    rintro i rfl
    exact signed_of_accepted hmode haccepted
  refine ⟨unique, publicKey, haccepted.started.randomU64, hadmits.authorized,
    hkeys _ _ hadmits.authorized, hsigned, ?_⟩
  -- An honest holder signs hellos only in its own sessions, and that is what the invariant's log of
  -- signatures says.
  intro i hi hhonest
  obtain ⟨a, serverHello, key, clientSign, clientUnique, lead, hparty, hanswered, -, hhello, -⟩ :=
    h.signed_clientHello hhonest (hsigned i hi)
  exact ⟨a, clientSign, clientUnique, hparty, hanswered.newPacketSign, hanswered.randomU64, hhello⟩

/-- An honest client's hello was signed for one challenge value. -/
theorem Invariant.unique_eq (h : net.Invariant modes w) (hfresh : net.FreshHellos) {i : ι}
    (hi : ¬ net.corrupt i) {unique unique' : UInt64} {hello : ClientHello}
    (hsigned : net.Signed w i (u64ToBeBytes unique ++ encodeClientHello hello))
    (hsigned' : net.Signed w i (u64ToBeBytes unique' ++ encodeClientHello hello)) :
    unique = unique' := by
  obtain ⟨a, _, _, _, _, _, -, hanswered, rfl, rfl, htrace⟩ := h.signed_clientHello hi hsigned
  obtain ⟨a', _, _, _, _, _, -, hanswered', rfl, hhello, htrace'⟩ :=
    h.signed_clientHello hi hsigned'
  -- Two sessions that sent one hello are one session, by the fresh key and number in it.
  obtain rfl := hfresh a a' _ _ _ _ hanswered.newPacketSign hanswered.randomU64
    hanswered'.newPacketSign hanswered'.randomU64 hhello
  -- One session receives one server hello.
  have hhead := hanswered.source.head_eq htrace
  rw [hanswered'.source.head_eq htrace'] at hhead
  have hwire := Event.received.inj (Option.some.inj hhead)
  exact (congrArg ServerHello.unique (ClientConfig.helloWire_injective hwire)).symm

variable [DecidableEq α] [DecidableEq β]

/-- In every reachable world, a session of a default-mode server completes only with
a hello that was signed for it under an authorized key, and two sessions of that
server do not complete with one hello of an honest client. -/
theorem server_admission (net : Network C ι α β) {w : World C ι α β}
    (hreach : net.Reachable (· = false) w) {s : ι}
    {authorized : Fixed sha256DigestLen → Option Bytes}
    (hserver : ∀ b, net.serverParty b = s → (net.server b).connSign.quantumInsecure = false ∧
      (net.server b).authorizedKeys = authorized)
    (hkeys : ∀ digest key, authorized digest = some key → digest = C.sha256 key)
    (hdistinct : net.DistinctUniques s) (hfresh : net.FreshHellos) :
    (∀ b stream, net.serverParty b = s → (w.servers b).task = .done stream →
      ∃ unique publicKey, (net.server b).randomU64 = .ok unique ∧
        net.Admission w authorized unique stream.clientHello publicKey) ∧
    (∀ b b' stream stream' i, net.serverParty b = s → net.serverParty b' = s →
      (w.servers b).task = .done stream → (w.servers b').task = .done stream' →
      authorized stream.clientHello.connSignPublicKeySha256 = some (net.publicKey i) →
      ¬ net.corrupt i → stream.clientHello = stream'.clientHello → b = b') := by
  have hinvariant := hreach.invariant
  have hadmission : ∀ b stream, net.serverParty b = s → (w.servers b).task = .done stream →
      ∃ unique publicKey, (net.server b).randomU64 = .ok unique ∧
        net.Admission w authorized unique stream.clientHello publicKey := by
    intro b stream hb hdone
    obtain ⟨hmode, rfl⟩ := hserver b hb
    exact hinvariant.admission hmode hkeys hdone
  refine ⟨hadmission, ?_⟩
  intro b b' stream stream' i hb hb' hdone hdone' hkey hi hhello
  obtain ⟨unique, publicKey, hunique, hadmits⟩ := hadmission b stream hb hdone
  obtain ⟨unique', publicKey', hunique', hadmits'⟩ := hadmission b' stream' hb' hdone'
  -- Both admissions are of the same hello and the same key from here on.
  rw [← hhello] at hadmits'
  obtain rfl := Option.some.inj (hkey.symm.trans hadmits.authorized)
  obtain rfl := Option.some.inj (hkey.symm.trans hadmits'.authorized)
  -- The client signed this hello for one challenge value, and that is of one session.
  obtain rfl := hinvariant.unique_eq hfresh hi (hadmits.signed i rfl) (hadmits'.signed i rfl)
  exact hdistinct b b' unique hb hb' hunique hunique'

/-! ## Two sessions side by side -/

/-- The number that a session of the pair draws. -/
def pairDraw (second : Bool) : UInt64 := if second then 8 else 7

/-- Two client sessions of party 1 and two server sessions of party 2. -/
def samplePair : Network Crypto.sample UInt8 Bool Bool where
  publicKey i := (ConnSign.sample i).publicKeyBytes
  corrupt i := i = 3
  client a :=
    { ClientConfig.sample 1 (ConnSign.sample 2).publicKeyBytes with randomU64 := .ok (pairDraw a) }
  clientParty _ := 1
  client_publicKey _ := rfl
  server b := .sample 2 (pairDraw b) (ConnSign.sample 1).publicKeyBytes
  serverParty _ := 2
  server_publicKey _ := rfl

theorem relay_samplePair (second : Bool) :
    samplePair.Relay second second (sampleHello 2 (pairDraw second))
      (ConnSign.sample 2).publicKeyBytes (.sample 1) (pairDraw second) (.sample 2) where
  lookup := rfl
  answered := ⟨.known rfl, rfl, rfl, rfl, rfl⟩
  started := ⟨rfl, rfl⟩

/-- A world after a handshake between the two sessions of one index. -/
def afterPair (w : World Crypto.sample UInt8 Bool Bool) (second : Bool) :
    World Crypto.sample UInt8 Bool Bool :=
  setServer (setClient w second (samplePair.relayedClient second (sampleHello 2 (pairDraw second))
      (ConnSign.sample 2).publicKeyBytes (.sample 1) (pairDraw second))) second
    (samplePair.relayedServer second second (sampleHello 2 (pairDraw second)) (.sample 1)
      (pairDraw second) (.sample 2))

theorem reachable_afterPair {w : World Crypto.sample UInt8 Bool Bool} (second : Bool)
    (hreach : samplePair.Reachable modes w) (hclient : w.clients second = ClientConfig.session)
    (hserver : w.servers second = (samplePair.server second).session) :
    samplePair.Reachable modes (afterPair w second) := by
  have hdigest : ((samplePair.client second).clientHello (.sample 1)
      (pairDraw second)).connSignPublicKeySha256 =
        Crypto.sample.sha256 (ConnSign.sample 1).publicKeyBytes := rfl
  have hauthorized : (samplePair.server second).authorizedKeys
      ((samplePair.client second).clientHello (.sample 1)
        (pairDraw second)).connSignPublicKeySha256 = some (ConnSign.sample 1).publicKeyBytes := by
    rw [hdigest]
    exact ServerConfig.sample_authorizedKeys ..
  have hlen := (ConnSign.sample 1).length_signature [] (u64ToBeBytes (pairDraw second) ++
    encodeClientHello ((samplePair.client second).clientHello (.sample 1) (pairDraw second)))
  exact (relay_samplePair second).reachable hreach hclient hserver
    ⟨hauthorized, ConnVerify.accepts_genuine hlen⟩ fun w hsigned => unforged_genuine rfl hsigned

/-- Both handshakes have gone through. -/
def samplePairWorld : World Crypto.sample UInt8 Bool Bool :=
  afterPair (afterPair samplePair.initial false) true

theorem reachable_samplePairWorld : samplePair.Reachable modes samplePairWorld := by
  refine reachable_afterPair true (reachable_afterPair false .refl rfl rfl) ?_ ?_
  · simp [afterPair, setClient, initial]
  · simp [afterPair, setServer, initial]

/-- What a server session of the pair has returned. -/
def pairStream (second : Bool) : ServerStream Crypto.sample :=
  ServerConfig.established 0
    ((samplePair.server second).pendingAfter (.sample 2) (pairDraw second))
    ((samplePair.client second).clientHello (.sample 1) (pairDraw second))

theorem servers_samplePairWorld (second : Bool) :
    (samplePairWorld.servers second).task = .done (pairStream second) := by
  cases second <;> simp [samplePairWorld, afterPair, setServer, relayedServer, pairStream] <;> rfl

/-- Both server sessions of the pair are done. Each was admitted with a hello that was signed for
it, and the two hellos are not one. -/
theorem server_admission_samplePairWorld :
    (∀ second, ∃ unique publicKey, (samplePair.server second).randomU64 = .ok unique ∧
      samplePair.Admission samplePairWorld (samplePair.server false).authorizedKeys unique
        (pairStream second).clientHello publicKey) ∧
    (pairStream false).clientHello ≠ (pairStream true).clientHello := by
  have hdraws : ∀ a a' number, Except.ok (pairDraw a) = (Except.ok number : Res UInt64) →
      Except.ok (pairDraw a') = (Except.ok number : Res UInt64) → a = a' := by
    intro a a' number ha ha'
    have hdraw := Except.ok.inj (ha.trans ha'.symm)
    revert hdraw
    cases a <;> cases a' <;> decide
  have hfresh : samplePair.FreshHellos := by
    intro a a' packetSign packetSign' unique unique' _ ha _ ha' hhello
    obtain rfl : unique = unique' := congrArg ClientHello.unique hhello
    exact hdraws a a' unique ha ha'
  have hserver : ∀ b, samplePair.serverParty b = 2 →
      (samplePair.server b).connSign.quantumInsecure = false ∧
        (samplePair.server b).authorizedKeys = (samplePair.server false).authorizedKeys :=
    fun _ _ => ⟨rfl, rfl⟩
  obtain ⟨hadmits, hdistinct⟩ := server_admission samplePair reachable_samplePairWorld hserver
    (fun _ _ => ServerConfig.digest_of_sample_authorizedKeys)
    (fun a a' number _ _ => hdraws a a' number) hfresh
  refine ⟨fun second => hadmits second _ rfl (servers_samplePairWorld second), fun hhello => ?_⟩
  have hkey : (samplePair.server false).authorizedKeys
      (pairStream false).clientHello.connSignPublicKeySha256 = some (samplePair.publicKey 1) :=
    ServerConfig.sample_authorizedKeys ..
  have hsame := hdistinct false true _ _ 1 rfl rfl (servers_samplePairWorld false)
    (servers_samplePairWorld true) hkey (by simp [samplePair]) hhello
  cases hsame

end Network

end Axsh

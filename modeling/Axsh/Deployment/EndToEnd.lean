/-
# From the keyboard to the screen

What the two sides of a deployment know of each other. The commands of a server session that
admitted the key of an honest party are the first lines that were typed in one session of that
party, and no other session of the server runs lines of the same client session. What a client
session that accepted the key of an honest server has read is the beginning of the output of its
own lines, as the server session it agrees with ran them.
-/

import Axsh.Deployment

set_option autoImplicit false

namespace Axsh

open PayloadStream

variable {C : Crypto} {ι α β : Type}

namespace Network

/-- A fresh packet key makes a fresh hello. -/
theorem FreshKeys.freshHellos {net : Network C ι α β} (h : net.FreshKeys) : net.FreshHellos := by
  rintro a a' packetSign packetSign' unique unique' hnew - hnew' - hhello
  exact h.clients a a' _ _ hnew hnew' (congrArg ClientHello.packetSignPublicKey hhello)

end Network

namespace Deployment

/-- The lines typed in a client session. -/
def lines (d : Deployment C ι α β) (a : α) : List Text := (d.clients a).elim [] ClientProgram.lines

/-- The commands of a server session. -/
def commands (d : Deployment C ι α β) (b : β) : List Text :=
  (d.servers b).elim [] ServerProgram.commands

/-- What a server session has written. -/
def transcript (d : Deployment C ι α β) (b : β) : Bytes :=
  (d.servers b).elim [] ServerProgram.transcript

/-- The server session is done with a hello that the client session made. -/
def Admits (net : Network C ι α β) (d : Deployment C ι α β) (b : β) (a : α) : Prop :=
  ∃ stream packetSign unique, (d.world.servers b).task = .done stream ∧
    (net.client a).newPacketSign = .ok packetSign ∧ (net.client a).randomU64 = .ok unique ∧
    stream.clientHello = (net.client a).clientHello packetSign unique

variable {net : Network C ι α β} {modes : Bool → Prop} {d : Deployment C ι α β}

/-- A server session runs lines of the client session whose hello it is done with. -/
theorem Invariant.commands_isPrefix (h : d.Invariant net modes) {a : α} {b : β}
    (hadmits : d.Admits net b a) : d.commands b <+: (d.lines a).map stripCr := by
  obtain ⟨stream, packetSign, unique, hdone, hnew, hunique, hhello⟩ := hadmits
  cases hserver : d.servers b with
  | none => simp [commands, hserver]
  | some s =>
    obtain ⟨stream', hdone', hkeys⟩ := h.server b s hserver
    obtain rfl := Task.done.inj (hdone.symm.trans hdone')
    obtain ⟨serverSign, now, -, htransport⟩ := h.world.server_transport hdone
    -- The server verifies packets with the key in the hello, which is the client's.
    have hpeer : s.endpoint.peerKey = packetSign.publicKeyBytes := by
      rw [hkeys.peerKey, Endpoint.new, htransport, hhello]
      rfl
    have hs : d.ServerMay net b s := (serverMay_some hserver).mpr rfl
    have hcommands : d.commands b = s.commands := by rw [commands, hserver]; rfl
    rw [hcommands]
    cases hclient : d.clients a with
    | none =>
      have hc : d.ClientMay net a
          (.start (.new packetSign (.new packetSign.publicKeyBytes 0))) := by
        rw [ClientMay, hclient]
        exact ⟨packetSign, _, 0, hnew, rfl⟩
      have hprefix := (h.commanded a b _ s hc hs hpeer).commands_isPrefix
      have hlines : d.lines a = [] := by rw [lines, hclient]; rfl
      rw [hlines]
      exact hprefix
    | some c =>
      have hc : d.ClientMay net a c := (clientMay_some hclient).mpr rfl
      obtain ⟨packetSign', hnew', hkey⟩ := h.client_key hc
      obtain rfl := Except.ok.inj (hnew.symm.trans hnew')
      have hprefix := (h.commanded a b c s hc hs (hpeer.trans hkey)).commands_isPrefix
      have hlines : d.lines a = c.lines := by rw [lines, hclient]; rfl
      rw [hlines]
      exact hprefix

/-- A server session that is done under an honest party's key has the hello of one of its
sessions. -/
theorem Invariant.exists_admits (h : d.Invariant net modes) {b : β} {stream : ServerStream C}
    {i : ι} (hmode : modes (net.server b).connSign.quantumInsecure)
    (hkeys : ∀ digest key, (net.server b).authorizedKeys digest = some key →
      digest = C.sha256 key)
    (hdone : (d.world.servers b).task = .done stream)
    (hauthorized : (net.server b).authorizedKeys stream.clientHello.connSignPublicKeySha256 =
      some (net.publicKey i)) (hi : ¬ net.corrupt i) :
    ∃ a, net.clientParty a = i ∧ d.Admits net b a := by
  obtain ⟨unique, publicKey, -, hadmission⟩ := h.world.admission hmode hkeys hdone
  obtain rfl := Option.some.inj (hauthorized.symm.trans hadmission.authorized)
  obtain ⟨a, packetSign, clientUnique, hparty, hnew, hrandom, hhello⟩ := hadmission.chosen i rfl hi
  exact ⟨a, hparty, stream, packetSign, clientUnique, hdone, hnew, hrandom, hhello⟩

/-- Two sessions of a server that are done with the hello of one client session are one session. -/
theorem Invariant.admits_unique (h : d.Invariant net modes) (hfresh : net.FreshKeys) {a : α}
    {b b' : β} {i : ι} (hmode : modes (net.server b).connSign.quantumInsecure)
    (hmode' : modes (net.server b').connSign.quantumInsecure)
    (hsame : (net.server b').authorizedKeys = (net.server b).authorizedKeys)
    (hkeys : ∀ digest key, (net.server b).authorizedKeys digest = some key →
      digest = C.sha256 key)
    (hdistinct : ∀ unique, (net.server b).randomU64 = .ok unique →
      (net.server b').randomU64 = .ok unique → b = b')
    {stream : ServerStream C} (hdone : (d.world.servers b).task = .done stream)
    (hauthorized : (net.server b).authorizedKeys stream.clientHello.connSignPublicKeySha256 =
      some (net.publicKey i)) (hi : ¬ net.corrupt i) (hadmits : d.Admits net b a)
    (hadmits' : d.Admits net b' a) : b = b' := by
  obtain ⟨first, packetSign, clientUnique, hfirst, hnew, hrandom, hhello⟩ := hadmits
  obtain ⟨second, packetSign', clientUnique', hsecond, hnew', hrandom', hhello'⟩ := hadmits'
  obtain rfl := Task.done.inj (hdone.symm.trans hfirst)
  obtain rfl := Except.ok.inj (hnew.symm.trans hnew')
  obtain rfl := Except.ok.inj (hrandom.symm.trans hrandom')
  obtain ⟨unique, publicKey, hunique, hadmission⟩ := h.world.admission hmode hkeys hdone
  obtain ⟨unique', publicKey', hunique', hadmission'⟩ :=
    h.world.admission hmode' (by rwa [hsame]) hsecond
  -- Both are admissions of the same hello, under the same key.
  rw [hsame, hhello', ← hhello] at hadmission'
  obtain rfl := Option.some.inj (hauthorized.symm.trans hadmission.authorized)
  obtain rfl := Option.some.inj (hauthorized.symm.trans hadmission'.authorized)
  obtain rfl := h.world.unique_eq hfresh.freshHellos hi (hadmission.signed i rfl)
    (hadmission'.signed i rfl)
  exact hdistinct unique hunique hunique'

/-- What a client session reads is written by the server session that it agrees with. -/
theorem Invariant.delivered_isPrefix (h : d.Invariant net modes) {a : α} {b : β}
    {c : ClientProgram C} {stream : ClientStream C} (hopen : d.clients a = some c)
    (hdone : (d.world.clients a).task = .done stream) (hagree : Agree net d.world a b stream) :
    c.endpoint.delivered <+: d.transcript b ∧ d.commands b <+: c.lines.map stripCr := by
  have hc : d.ClientMay net a c := (clientMay_some hopen).mpr rfl
  obtain ⟨stream', hdone', hkeys⟩ := h.client a c hopen
  obtain rfl := Task.done.inj (hdone.symm.trans hdone')
  obtain ⟨packetSign, hnew, hpeer⟩ := hagree.serverKey
  match hserver : d.servers b with
  | none =>
    have hs : d.ServerMay net b (.start (.new packetSign (.new packetSign.publicKeyBytes 0))) := by
      rw [ServerMay, hserver]
      exact ⟨packetSign, _, 0, hnew, rfl⟩
    have hdelivered := (h.replied a b c _ hc hs (hkeys.peerKey.trans hpeer)).delivered_isPrefix
    have htranscript : d.transcript b = [] := by rw [transcript, hserver]; rfl
    have hcommands : d.commands b = [] := by rw [commands, hserver]; rfl
    rw [htranscript, hcommands]
    exact ⟨hdelivered, List.nil_prefix⟩
  | some s =>
    have hs : d.ServerMay net b s := (serverMay_some hserver).mpr rfl
    obtain ⟨accepted, hdone', hkeys'⟩ := h.server b s hserver
    -- The server session is done, so its stream has the keys that the agreement says.
    have hends := hagree.clientKey
    rw [hdone'] at hends
    obtain ⟨hsign, hverify⟩ := hends
    have hreplied := h.replied a b c s hc hs
      (hkeys.peerKey.trans (hsign.symm.trans hkeys'.publicKey.symm))
    have hcommanded := h.commanded a b c s hc hs
      (hkeys'.peerKey.trans (hverify.trans hkeys.publicKey.symm))
    have htranscript : d.transcript b = s.endpoint.accepted := by
      rw [transcript, hserver, (h.serves b s hserver).transcribed.accepted]
      rfl
    have hcommands : d.commands b = s.commands := by rw [commands, hserver]; rfl
    rw [htranscript, hcommands]
    exact ⟨hreplied.delivered_isPrefix, hcommanded.commands_isPrefix⟩

variable [DecidableEq α] [DecidableEq β]

/-! ## Runs of one program -/

/-- A run of the handshakes is a run of the deployment. -/
theorem Reachable.handshakes {w : World C ι α β} (h : net.Reachable modes w) :
    Reachable net modes ⟨w, fun _ => none, fun _ => none⟩ := by
  induction h with
  | refl => exact .refl
  | tail _ hstep ih => exact ih.tail (.handshake _ hstep)

omit [DecidableEq β] in
theorem setClient_setClient (a : α) (c c' : ClientProgram C) :
    (d.setClient a c).setClient a c' = d.setClient a c' := by
  simp only [setClient, Function.update_idem]

omit [DecidableEq α] in
theorem setServer_setServer (b : β) (s s' : ServerProgram C) :
    (d.setServer b s).setServer b s' = d.setServer b s' := by
  simp only [setServer, Function.update_idem]

/-- A run of a client program that reads nothing. -/
theorem Reachable.client {a : α} {c c' : ClientProgram C}
    (h : Reachable net modes (d.setClient a c))
    (hrun : Relation.ReflTransGen (ClientProgram.Step Unread) c c') :
    Reachable net modes (d.setClient a c') := by
  induction hrun with
  | refl => exact h
  | @tail c₁ c₂ _ hstep ih =>
    have hnext : Step net modes (d.setClient a c₁) _ := .client a c₁ c₂ (by simp) ?_
    · rw [setClient_setClient] at hnext
      exact ih.tail hnext
    · exact hstep.mono fun _ => False.elim

/-- A run of a server program that reads nothing. -/
theorem Reachable.server {b : β} {s s' : ServerProgram C}
    (h : Reachable net modes (d.setServer b s))
    (hrun : Relation.ReflTransGen (ServerProgram.Step Unread) s s') :
    Reachable net modes (d.setServer b s') := by
  induction hrun with
  | refl => exact h
  | @tail s₁ s₂ _ hstep ih =>
    have hnext : Step net modes (d.setServer b s₁) _ := .server b s₁ s₂ (by simp) ?_
    · rw [setServer_setServer] at hnext
      exact ih.tail hnext
    · exact hstep.mono fun _ => False.elim

/-! ## A sample run -/

/-- The streams of the sample network's client and server. -/
def sampleClientStream : ClientStream Crypto.sample :=
  ClientConfig.established Network.samplePending

def sampleServerStream : ServerStream Crypto.sample :=
  ServerConfig.established 0 (((Network.sample 2 1).server ()).pendingAfter (.sample 2) 7)
    Network.sampleClientHello

/-- The sample network once its sessions are done. -/
def sampleStart : Deployment Crypto.sample UInt8 Unit Unit :=
  ⟨Network.sampleAgreed, fun _ => none, fun _ => none⟩

theorem servers_sampleStart :
    (sampleStart.world.servers ()).task = .done sampleServerStream := by
  rw [sampleStart, Network.sampleAgreed, Network.setClient_servers, Network.sampleWorld,
    Network.setServer_servers_self]
  rfl

/-- The sample client has sent a line. -/
def sampleTyped : ClientProgram Crypto.sample where
  endpoint := (Endpoint.new sampleClientStream.transport).afterSend (.write (lineBytes ['a']) [])
  loop := .flush true false
  lines := [['a']]

/-- The read of the sample server that meets its frame. -/
def sampleLineRead : ReadCall :=
  ⟨.recording [((PacketSign.sample 1).publicKeyBytes.1, packetSignatureInput 0 (lineBytes ['a']))],
    fun _ => 0, 8192, (payloadFrame (.sample 1) (lineBytes ['a'])).map .byte⟩

/-- The sample server has run the line and written a byte. -/
def sampleRan : ServerProgram Crypto.sample where
  endpoint := ((Endpoint.new sampleServerStream.transport).afterRead sampleLineRead).afterSend
    (.write [0x62] [])
  reader := ⟨[], []⟩
  serving := .runCommandLine (.flush (.select true true))
  commands := [['a']]
  outputs := []
  output := (Output.empty.afterPipe .stdout (.ready (.ok [0x62]))).afterSend (some [0x62])

/-- The sample client waits again. -/
def sampleWaits : ClientProgram Crypto.sample :=
  { sampleTyped with
    endpoint := sampleTyped.endpoint.afterSend
      (ClientProgram.flushWhole sampleTyped.endpoint.stream)
    loop := .select true }

/-- The read of the sample client that meets the server's frame. -/
def sampleOutputRead : ReadCall :=
  ⟨.recording [((PacketSign.sample 2).publicKeyBytes.1, packetSignatureInput 0 [0x62])],
    fun _ => 0, 1024, (payloadFrame (.sample 2) [0x62]).map .byte⟩

/-- The sample client has read the output. -/
def sampleShown : ClientProgram Crypto.sample :=
  { sampleWaits with endpoint := sampleWaits.endpoint.afterRead sampleOutputRead }

/-- The line was typed, run and answered. -/
def sampleEnd : Deployment Crypto.sample UInt8 Unit Unit :=
  (sampleStart.setClient () sampleShown).setServer () sampleRan

theorem signed_sampleTyped : sampleTyped.endpoint.signed =
    [packetSignatureInput 0 (lineBytes ['a'])] :=
  Endpoint.signed_write (e := .new sampleClientStream.transport) rfl (by decide)

theorem read_sampleLineRead :
    (sampleServerStream.transport.read sampleLineRead).result = .ready (.ok (lineBytes ['a'])) :=
  read_payloadFrame (Verifier.recording_ed25519.mpr List.mem_cons_self)
    (fits_of_length_le _ (by decide)) (by decide) (bounded_new _ _) rfl rfl ⟨rfl, rfl⟩
    (by decide) (by decide)

theorem sameKeys_sampleTyped :
    (Endpoint.new sampleClientStream.transport).SameKeys sampleTyped.endpoint :=
  Endpoint.sameKeys_afterSend (bounded_new _ _) _

theorem sameKeys_sampleRan :
    (Endpoint.new sampleServerStream.transport).SameKeys sampleRan.endpoint := by
  have hread := Endpoint.sameKeys_afterRead
    (e := .new sampleServerStream.transport) (bounded_new _ _) sampleLineRead
  have hsend := Endpoint.sameKeys_afterSend hread.bounded (.write [0x62] [])
  exact ⟨hsend.bounded, hsend.publicKey.trans hread.publicKey, hsend.peerKey.trans hread.peerKey⟩

/-- Sends leave the read side of the sample client as it was. -/
theorem sameRead_sampleWaits :
    SameRead sampleClientStream.transport sampleWaits.endpoint.stream := by
  have hfirst : SameRead sampleClientStream.transport sampleTyped.endpoint.stream :=
    Endpoint.sameRead_afterSend (e := .new sampleClientStream.transport) (bounded_new _ _) _
  have hsecond : SameRead sampleTyped.endpoint.stream sampleWaits.endpoint.stream :=
    Endpoint.sameRead_afterSend sameKeys_sampleTyped.bounded _
  exact ⟨hsecond.peerPacketVerify.trans hfirst.peerPacketVerify,
    hsecond.frameReader.trans hfirst.frameReader, hsecond.readBuffer.trans hfirst.readBuffer,
    hsecond.readOffset.trans hfirst.readOffset⟩

/-- A stream with that read side delivers the server's byte. -/
theorem read_sampleOutputRead {stream : PayloadStream Crypto.sample} (hbounded : stream.Bounded)
    (hsame : SameRead sampleClientStream.transport stream) :
    (stream.read sampleOutputRead).result = .ready (.ok [0x62]) := by
  have hunread : stream.unread = [] := by
    rw [unread, hsame.readBuffer, hsame.readOffset]
    rfl
  have hmatches : Matches (.sample 2) stream.peerPacketVerify := by
    rw [hsame.peerPacketVerify]
    exact ⟨rfl, rfl⟩
  have hidle : (0 : Instant) - stream.peerPacketVerify.lastSuccess ≤ maxConnectionIdle := by
    rw [hsame.peerPacketVerify]
    decide
  exact read_payloadFrame (Verifier.recording_ed25519.mpr List.mem_cons_self)
    (fits_of_length_le _ (by decide)) (by decide) hbounded hsame.frameReader hunread hmatches hidle
    (by decide)

/-- The verdicts on the line are unforged once the client has sent it. -/
theorem unforged_sampleLineRead :
    Unforged (Network.sample 2 1)
      ((sampleStart.setServer () (.start sampleServerStream.transport)).setClient
        () sampleTyped) sampleLineRead.V := by
  intro key hkey message signature hverdict
  obtain ⟨hkey, rfl⟩ := Prod.mk.inj (List.mem_singleton.mp (Verifier.recording_ed25519.mp hverdict))
  obtain rfl := Subtype.ext hkey
  refine .inl ⟨(), sampleTyped, setClient_clients_self .., sameKeys_sampleTyped.publicKey, ?_⟩
  rw [signed_sampleTyped]
  exact List.mem_cons_self

/-- The sample server's endpoint once it has read the line. -/
def sampleHeard : Endpoint Crypto.sample :=
  (Endpoint.new sampleServerStream.transport).afterRead sampleLineRead

theorem unsent_sampleHeard : sampleHeard.stream.unsent = [] :=
  Endpoint.unsent_afterRead (e := .new sampleServerStream.transport) (bounded_new _ _)
    sampleLineRead

theorem signCounter_sampleHeard : sampleHeard.stream.packetSign.signCounter = 0 := by
  have hsame : SameWrite sampleServerStream.transport sampleHeard.stream :=
    Endpoint.sameWrite_afterRead (e := .new sampleServerStream.transport) (bounded_new _ _) _
  rw [hsame.packetSign]
  rfl

theorem signed_sampleRan : sampleRan.endpoint.signed = [packetSignatureInput 0 [0x62]] := by
  have hsigned : sampleRan.endpoint.signed =
      [] ++ [packetSignatureInput sampleHeard.stream.packetSign.signCounter [0x62]] :=
    Endpoint.signed_write unsent_sampleHeard (by decide)
  rw [hsigned, signCounter_sampleHeard]
  rfl

/-- The verdicts on the output are unforged once the server has sent it. -/
theorem unforged_sampleOutputRead (d : Deployment Crypto.sample UInt8 Unit Unit) :
    Unforged (Network.sample 2 1) (d.setServer () sampleRan) sampleOutputRead.V := by
  intro key hkey message signature hverdict
  obtain ⟨hkey, rfl⟩ := Prod.mk.inj (List.mem_singleton.mp (Verifier.recording_ed25519.mp hverdict))
  obtain rfl := Subtype.ext hkey
  refine .inr ⟨(), sampleRan, setServer_servers_self .., sameKeys_sampleRan.publicKey, ?_⟩
  rw [signed_sampleRan]
  exact List.mem_cons_self

theorem reachable_sampleEnd (modes : Bool → Prop) :
    Reachable (Network.sample 2 1) modes sampleEnd := by
  have hopen : Reachable (Network.sample 2 1) modes
      ((sampleStart.setServer () (.start sampleServerStream.transport)).setClient ()
        (.start sampleClientStream.transport)) :=
    .tail (.tail (Reachable.handshakes Network.reachable_sampleAgreed)
      (.openServer () sampleServerStream servers_sampleStart rfl))
      (.openClient () sampleClientStream rfl rfl)
  have htyped : Reachable (Network.sample 2 1) modes
      ((sampleStart.setServer () (.start sampleServerStream.transport)).setClient () sampleTyped) :=
    hopen.client (ClientProgram.run_line rfl rfl ['a'] (by decide))
  -- The server reads the line, runs it and writes a byte.
  have hheard : Reachable (Network.sample 2 1) modes
      ((sampleStart.setClient () sampleTyped).setServer ()
        { ServerProgram.start sampleServerStream.transport with
          endpoint := sampleHeard, reader := ⟨lineBytes ['a'], []⟩ }) :=
    htyped.tail (.server () (.start sampleServerStream.transport) _ rfl
      (ServerProgram.step_read rfl rfl rfl unforged_sampleLineRead read_sampleLineRead))
  have hran : Reachable (Network.sample 2 1) modes
      ((sampleStart.setClient () sampleTyped).setServer () sampleRan) :=
    hheard.server (ServerProgram.run_command rfl ['a'] (by decide) rfl unsent_sampleHeard [0x62]
      (by decide) (by decide))
  -- The client has flushed its line, and reads the byte.
  have hwaits : Reachable (Network.sample 2 1) modes
      ((sampleStart.setServer () sampleRan).setClient () sampleWaits) :=
    (show Reachable (Network.sample 2 1) modes
      ((sampleStart.setServer () sampleRan).setClient () sampleTyped) from hran).client
      (.single (ClientProgram.step_flush rfl))
  have hkeys : sampleTyped.endpoint.SameKeys sampleWaits.endpoint :=
    Endpoint.sameKeys_afterSend sameKeys_sampleTyped.bounded _
  exact (show Reachable (Network.sample 2 1) modes
      ((sampleStart.setClient () sampleWaits).setServer () sampleRan) from hwaits).tail
    (.client () sampleWaits sampleShown rfl (ClientProgram.step_read rfl rfl
      (unforged_sampleOutputRead _) (by decide)
      (read_sampleOutputRead hkeys.bounded sameRead_sampleWaits)))

theorem delivered_sampleShown : sampleShown.endpoint.delivered = [0x62] := by
  have hkeys : sampleTyped.endpoint.SameKeys sampleWaits.endpoint :=
    Endpoint.sameKeys_afterSend sameKeys_sampleTyped.bounded _
  have hread := read_sampleOutputRead hkeys.bounded sameRead_sampleWaits
  change [] ++ deliveredBy (sampleWaits.endpoint.stream.read sampleOutputRead).result = _
  rw [hread]
  rfl

theorem freshKeys_sample : (Network.sample 2 1).FreshKeys where
  client _ packetSign hnew := by
    obtain rfl := Except.ok.inj hnew
    rfl
  server _ packetSign hnew := by
    obtain rfl := Except.ok.inj hnew
    rfl
  clients _ _ _ _ _ _ _ := rfl
  servers _ _ _ _ _ _ _ := rfl
  disjoint _ _ packetSign packetSign' hnew hnew' hkey := by
    obtain rfl := Except.ok.inj hnew
    obtain rfl := Except.ok.inj hnew'
    have hhead := congrArg (fun key => key.1.head?) hkey
    exact absurd hhead (by decide)

theorem short_sampleEnd : sampleEnd.Short where
  clients _ c hopen := by
    obtain rfl := Option.some.inj hopen
    -- A flush and a read sign nothing.
    have hsigned : sampleShown.endpoint.signed = sampleTyped.endpoint.signed :=
      List.append_nil _
    rw [hsigned, signed_sampleTyped]
    exact Nat.one_lt_two_pow (by decide)
  servers _ s hopen := by
    obtain rfl := Option.some.inj hopen
    rw [signed_sampleRan]
    exact Nat.one_lt_two_pow (by decide)

/-! ## The two directions -/

/-- In every reachable deployment, a session of a server that is done under the key of an honest
party runs the first lines that were typed in one session of that party, and no other session of
that server is done with the hello of the same session. -/
theorem commands_authentic (hreach : Reachable net modes d) (hfresh : net.FreshKeys)
    (hshort : d.Short) {s : ι} {authorized : Fixed sha256DigestLen → Option Bytes}
    (hserver : ∀ b, net.serverParty b = s → modes (net.server b).connSign.quantumInsecure ∧
      (net.server b).authorizedKeys = authorized)
    (hkeys : ∀ digest key, authorized digest = some key → digest = C.sha256 key)
    (hdistinct : net.DistinctUniques s) {b : β} (hb : net.serverParty b = s)
    {stream : ServerStream C} (hdone : (d.world.servers b).task = .done stream) {i : ι}
    (hauthorized : authorized stream.clientHello.connSignPublicKeySha256 = some (net.publicKey i))
    (hi : ¬ net.corrupt i) :
    ∃ a, net.clientParty a = i ∧ d.commands b <+: (d.lines a).map stripCr ∧ d.Admits net b a ∧
      ∀ b', net.serverParty b' = s → d.Admits net b' a → b' = b := by
  have h := hreach.invariant hfresh hshort
  obtain ⟨hmode, rfl⟩ := hserver b hb
  obtain ⟨a, hparty, hadmits⟩ := h.exists_admits hmode hkeys hdone hauthorized hi
  refine ⟨a, hparty, h.commands_isPrefix hadmits, hadmits, fun b' hb' hadmits' => ?_⟩
  obtain ⟨hmode', hsame⟩ := hserver b' hb'
  exact (h.admits_unique hfresh hmode hmode' hsame hkeys
    (fun unique => hdistinct b b' unique hb hb') hdone hauthorized hi hadmits hadmits').symm

/-- The sample server session runs the line of the sample client session. -/
theorem commands_authentic_sampleEnd : sampleEnd.commands () = [['a']] ∧
    ∃ a, (Network.sample 2 1).clientParty a = 1 ∧
      sampleEnd.commands () <+: (sampleEnd.lines a).map stripCr ∧
      sampleEnd.Admits (Network.sample 2 1) () a ∧
      ∀ b, (Network.sample 2 1).serverParty b = 2 →
        sampleEnd.Admits (Network.sample 2 1) b a → b = () := by
  have hdigest : sampleServerStream.clientHello.connSignPublicKeySha256 =
      Crypto.sample.sha256 (ConnSign.sample 1).publicKeyBytes := rfl
  have hauthorized : ((Network.sample 2 1).server ()).authorizedKeys
      sampleServerStream.clientHello.connSignPublicKeySha256 =
        some ((Network.sample 2 1).publicKey 1) := by
    rw [hdigest]
    exact ServerConfig.sample_authorizedKeys ..
  have hkeys : ∀ digest key, ((Network.sample 2 1).server ()).authorizedKeys digest = some key →
      digest = Crypto.sample.sha256 key :=
    fun _ _ => ServerConfig.digest_of_sample_authorizedKeys
  have hdone : (sampleEnd.world.servers ()).task = .done sampleServerStream := servers_sampleStart
  have hhonest : ¬ (Network.sample 2 1).corrupt 1 := by simp [Network.sample]
  have hserver : ∀ b, (Network.sample 2 1).serverParty b = 2 → True ∧
      ((Network.sample 2 1).server b).authorizedKeys =
        ((Network.sample 2 1).server ()).authorizedKeys := fun _ _ => ⟨trivial, rfl⟩
  exact ⟨rfl, commands_authentic (reachable_sampleEnd fun _ => True) freshKeys_sample
    short_sampleEnd hserver hkeys (fun _ _ _ _ _ _ _ => rfl) rfl hdone hauthorized hhonest⟩

/-- In every reachable deployment, what a client session has read is the beginning of what a
session of the honest server whose key it accepted has written, and that is the output of
commands that are the first lines of this client session. -/
theorem replies_authentic (hreach : Reachable net modes d) (hfresh : net.FreshKeys)
    (hshort : d.Short) {a : α} {c : ClientProgram C} (hopen : d.clients a = some c)
    {stream : ClientStream C} (hdone : (d.world.clients a).task = .done stream)
    (hmode : modes (net.client a).connSign.quantumInsecure) {j : ι} (hj : ¬ net.corrupt j)
    (hasked : .asked stream.serverHello (net.publicKey j) true ∈ (d.world.clients a).trace) :
    ∃ b, net.serverParty b = j ∧ Agree net d.world a b stream ∧
      c.endpoint.delivered <+: d.transcript b ∧ d.commands b <+: c.lines.map stripCr ∧
      ∀ s, d.servers b = some s → s.Transcribed := by
  have h := hreach.invariant hfresh hshort
  obtain ⟨b, hparty, hagree⟩ := h.world.agree hmode hdone hj hasked
  obtain ⟨hdelivered, hcommands⟩ := h.delivered_isPrefix hopen hdone hagree
  exact ⟨b, hparty, hagree, hdelivered, hcommands, fun s hs => (h.serves b s hs).transcribed⟩

/-- The sample client session has read the byte that the command of its line printed. -/
theorem replies_authentic_sampleEnd : sampleShown.endpoint.delivered = [0x62] ∧
    ∃ b, (Network.sample 2 1).serverParty b = 2 ∧
      Agree (Network.sample 2 1) sampleEnd.world () b sampleClientStream ∧
      sampleShown.endpoint.delivered <+: sampleEnd.transcript b ∧
      sampleEnd.commands b <+: sampleShown.lines.map stripCr ∧
      ∀ s, sampleEnd.servers b = some s → s.Transcribed :=
  have hdone : (sampleEnd.world.clients ()).task = .done sampleClientStream := rfl
  have hopen : sampleEnd.clients () = some sampleShown := rfl
  ⟨delivered_sampleShown, replies_authentic (reachable_sampleEnd fun _ => True) freshKeys_sample
    short_sampleEnd hopen hdone trivial (by simp [Network.sample]) Network.asked_sampleAgreed⟩

end Deployment

end Axsh

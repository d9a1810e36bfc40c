/-
# From key files to a connection

What the tools print is what the programs load. The line that `axsh-pubkey` prints for a client's
key file, in the authorized-keys file of a server, lets that client in; the fingerprint that
`axsh-fingerprint` prints for a server's line is the one that the client's user is shown, and no
other key is shown with it, up to a collision of the digest. A client and a server whose files
have been made so can always complete their handshake.
-/

import Axsh.Keys.File
import Axsh.KnownHosts.Pinning

set_option autoImplicit false

namespace Axsh

/-- `axsh-fingerprint`: what it prints. -/
def fingerprint (C : Crypto) (path : String) (fault : Option FileFault) (file : Option Bytes) :
    Res Text := do
  let publicKey ← loadPublicKey path fault file
  return (formatSha256Fingerprint C publicKey).toList ++ ['\n']

section Tools

variable {C : Crypto} {P : Pkcs8 C} {path : String} {file : Option Bytes}

/-- A public key is not empty. -/
theorem publicKeyBytes_ne_nil (connSign : ConnSign C) : connSign.publicKeyBytes ≠ [] :=
  List.cons_ne_nil _ _

/-- `axsh-pubkey` prints the line of the key that the other programs load, in either mode. -/
theorem pubkey_of_builderFromFile {quantumInsecure : Bool} {key : StoredConnSign C}
    (hload : StoredConnSign.builderFromFile P quantumInsecure path none file = .ok key) :
    key.quantumInsecure = quantumInsecure ∧
      pubkey P path none file = .ok (formatAuthorizedConnKey key.publicKeyBytes ++ ['\n']) := by
  obtain ⟨cs, hfile, hkey⟩ := bind_eq_ok.mp hload
  obtain rfl := Except.ok.inj hkey
  refine ⟨rfl, ?_⟩
  rw [pubkey, hfile]
  rfl

/-- The printed line is the one relevant line of what is printed. -/
theorem relevantLines_printed {publicKey : Bytes} (hne : publicKey ≠ []) :
    relevantLines (formatAuthorizedConnKey publicKey ++ ['\n']) =
      [formatAuthorizedConnKey publicKey] := by
  have hline : ∀ key ∈ [publicKey], key ≠ [] := by simp [hne]
  have hrelevant := relevantLines_format hline
  rwa [List.map_singleton, Lines.join_cons, Lines.join_nil] at hrelevant

/-- A key whose line is in a file that loads is authorized. -/
theorem authorized_of_mem {contents : Text} {keys : AuthorizedKeys} {publicKey : Bytes}
    (hload : loadAuthorizedKeys C path none (some (utf8 contents)) = .ok keys)
    (hne : publicKey ≠ []) (hmem : formatAuthorizedConnKey publicKey ∈ relevantLines contents) :
    keys (C.sha256 publicKey) = some publicKey := by
  obtain ⟨listed, hlisted, hnodup, rfl⟩ := loadAuthorizedKeys_iff_listed.mp hload
  rw [ofList_listed_eq_some_iff hnodup, mem_listed_iff hlisted]
  exact ⟨⟨_, hmem, isKeyLine_format hne⟩, rfl⟩

end Tools

/-! ## Fingerprints -/

section Prompt

variable {C : Crypto} {host : Text} {publicKey publicKey' : Bytes} {console : Console}

/-- A terminal without errors shows the whole question. -/
theorem ask_fst (hquiet : console.question = fun _ => none) :
    (console.ask C host publicKey).1 =
      (questionPieces host (formatSha256Fingerprint C publicKey)).flatten := by
  rw [Console.ask, hquiet, writeAllPieces_none]
  rfl

/-- Questions about two keys for one host look the same exactly if the fingerprints do. -/
theorem questionPieces_inj {first second : String}
    (h : (questionPieces host first).flatten = (questionPieces host second).flatten) :
    first = second := by
  simp only [questionPieces, List.flatten_cons, List.flatten_nil, List.append_nil] at h
  have hmiddle := List.append_cancel_right (List.append_cancel_left h)
  have htext := List.append_cancel_left (utf8_injective hmiddle)
  simp only [String.toList_append] at htext
  exact String.toList_inj.mp (List.append_cancel_left (List.append_cancel_right htext))

end Prompt

/-- A server's owner prints the public key of its file and the fingerprint of that print. A user
who is asked about a key sees the question for that fingerprint if and only if it is the server's
key, or shows a collision of the digest with it. -/
theorem fingerprint_authenticates {C : Crypto} (P : Pkcs8 C) (keyPath path : String)
    (file : Option Bytes) (key : StoredConnSign C) (quantumInsecure : Bool)
    (hload : StoredConnSign.builderFromFile P quantumInsecure keyPath none file = .ok key) :
    ∃ printed digits, pubkey P keyPath none file = .ok printed ∧
      fingerprint C path none (some (utf8 printed)) = .ok (digits.toList ++ ['\n']) ∧
      ∀ (host : Text) (console : Console) (publicKey : Bytes),
        (console.question = fun _ => none) →
        ((console.ask C host publicKey).1 = (questionPieces host digits).flatten ↔
          publicKey = key.publicKeyBytes ∨ publicKey ≠ key.publicKeyBytes ∧
            C.sha256 publicKey = C.sha256 key.publicKeyBytes) := by
  have hne := publicKeyBytes_ne_nil key.toConnSign
  have hkey : loadPublicKey path none (some (utf8 _)) = .ok key.publicKeyBytes :=
    loadPublicKey_eq_ok_iff.mpr
      ⟨_, relevantLines_printed hne, (isKeyLine_format hne).parsePublicKeyLine⟩
  refine ⟨_, formatSha256Fingerprint C key.publicKeyBytes, (pubkey_of_builderFromFile hload).2, ?_,
    fun host console publicKey hquiet => ?_⟩
  · rw [fingerprint, hkey]
    rfl
  · rw [ask_fst hquiet]
    constructor
    · intro hshown
      by_cases heq : publicKey = key.publicKeyBytes
      · exact .inl heq
      · exact .inr ⟨heq, formatSha256Digest_injective (questionPieces_inj hshown)⟩
    · rintro (rfl | ⟨-, hdigest⟩)
      · rfl
      · rw [formatSha256Fingerprint, hdigest]
        rfl

/-- The key file of the sample key that is named by a byte. -/
def sampleKeyFile (keyPair : UInt8) : Option Bytes := some (privateKeyBundle 1 1 [keyPair, keyPair])

theorem load_sampleKeyFile (keyPair : UInt8) (path : String) :
    StoredConnSign.builderFromFile Pkcs8.sample false path none (sampleKeyFile keyPair) =
      .ok ⟨.sample keyPair, [keyPair], [keyPair]⟩ := rfl

/-- The fingerprint of a sample server. -/
theorem fingerprint_authenticates_sampleKeyFile :
    ∃ printed digits, pubkey Pkcs8.sample "axshd.pk8" none (sampleKeyFile 2) = .ok printed ∧
      fingerprint Crypto.sample "axshd.pub" none (some (utf8 printed)) =
        .ok (digits.toList ++ ['\n']) ∧
      (KnownHosts.sampleInvocation.console.ask Crypto.sample ['h'] KnownHosts.sampleKey).1 =
        (questionPieces ['h'] digits).flatten := by
  obtain ⟨printed, digits, hprinted, hdigits, hshown⟩ := fingerprint_authenticates Pkcs8.sample
    "axshd.pk8" "axshd.pub" (sampleKeyFile 2) _ false (load_sampleKeyFile 2 _)
  exact ⟨printed, digits, hprinted, hdigits,
    (hshown ['h'] KnownHosts.sampleInvocation.console KnownHosts.sampleKey rfl).mpr (.inl rfl)⟩

/-! ## The handshake -/

/-- What is on the disks of a client and of a server, and what the programs are given: the key
files, the authorized-keys file with the line that `axsh-pubkey` prints for the client's key, and
a known-hosts file that lists the server's key, or lists the host not at all while the user says
yes to that key. -/
structure Provisioned {C : Crypto} (P : Pkcs8 C) (inv : KnownHosts.Invocation C)
    (server : ServerConfig C) (hostsPath : String) (hosts : Hosts) (knownHosts : Option Bytes)
    (quantumInsecure : Bool) where
  clientPath : String
  serverPath : String
  authorizedPath : String
  clientFile : Option Bytes
  serverFile : Option Bytes
  authorized : Text
  printed : Text
  clientKey : StoredConnSign C
  serverKey : StoredConnSign C
  client_loaded : StoredConnSign.builderFromFile P quantumInsecure clientPath none clientFile =
    .ok clientKey
  server_loaded : StoredConnSign.builderFromFile P quantumInsecure serverPath none serverFile =
    .ok serverKey
  client_connSign : inv.connSign = clientKey.toConnSign
  server_connSign : server.connSign = serverKey.toConnSign
  client_printed : pubkey P clientPath none clientFile = .ok printed
  printed_mem : ∀ line ∈ relevantLines printed, line ∈ relevantLines authorized
  authorized_loaded : loadAuthorizedKeys C authorizedPath none (some (utf8 authorized)) =
    .ok server.authorizedKeys
  hosts_loaded : loadKnownHosts hostsPath none knownHosts = .ok hosts
  trusted : hosts inv.addr = some serverKey.publicKeyBytes ∨ hosts inv.addr = none ∧
    (confirmAndAddKnownHost C hostsPath inv.addr serverKey.publicKeyBytes inv.console
      knownHosts).result = .ok ()

namespace Provisioned

variable {C : Crypto} {P : Pkcs8 C} {inv : KnownHosts.Invocation C} {server : ServerConfig C}
  {hostsPath : String} {hosts : Hosts} {knownHosts : Option Bytes} {quantumInsecure : Bool}

/-- The two programs, with the packet keys and the challenge values that they draw. -/
def setting (inv : KnownHosts.Invocation C) (server : ServerConfig C) (hostsPath : String)
    (hosts : Hosts) (knownHosts : Option Bytes) (clientSign serverSign : PacketSign C)
    (clientUnique serverUnique : UInt64) : Setting C where
  client := inv.config hostsPath hosts knownHosts
  server := server
  clientSign := clientSign
  serverSign := serverSign
  clientUnique := clientUnique
  serverUnique := serverUnique

/-- Programs with such files can agree. -/
theorem honest (h : Provisioned P inv server hostsPath hosts knownHosts quantumInsecure)
    {V : Verifier} (hV : V.Correct C) {clientSign serverSign : PacketSign C}
    {clientUnique serverUnique : UInt64} (hclientSign : inv.newPacketSign = .ok clientSign)
    (hclientUnique : inv.randomU64 = .ok clientUnique)
    (hstarted : server.Started serverSign serverUnique) :
    (setting inv server hostsPath hosts knownHosts clientSign serverSign clientUnique
      serverUnique).Honest V := by
  obtain ⟨hclientMode, hprinted⟩ := pubkey_of_builderFromFile h.client_loaded
  obtain ⟨hserverMode, -⟩ := pubkey_of_builderFromFile h.server_loaded
  have hne := publicKeyBytes_ne_nil h.clientKey.toConnSign
  have hline : formatAuthorizedConnKey h.clientKey.publicKeyBytes ∈ relevantLines h.authorized := by
    apply h.printed_mem
    rw [Except.ok.inj (h.client_printed.symm.trans hprinted), relevantLines_printed hne]
    exact List.mem_singleton_self _
  refine ⟨hV, ?_, hclientSign, hclientUnique, hstarted, ?_, ?_, ?_⟩
  · change inv.connSign.quantumInsecure = server.connSign.quantumInsecure
    rw [h.client_connSign, h.server_connSign, hclientMode, hserverMode]
  · change server.authorizedKeys (C.sha256 inv.connSign.publicKeyBytes) =
      some inv.connSign.publicKeyBytes
    rw [h.client_connSign]
    exact authorized_of_mem h.authorized_loaded hne hline
  · change (if (hosts inv.addr).isSome then .ok () else
      (confirmAndAddKnownHost C hostsPath inv.addr server.connSign.publicKeyBytes inv.console
        knownHosts).result) = .ok ()
    rcases h.trusted with hlisted | ⟨hnone, hconfirmed⟩
    · simp [hlisted]
    · rw [h.server_connSign, hnone]
      exact hconfirmed
  · change (.ok (hosts inv.addr) : Res (Option Bytes)) = .ok none ∨
      (.ok (hosts inv.addr) : Res (Option Bytes)) = .ok (some server.connSign.publicKeyBytes)
    rw [h.server_connSign]
    rcases h.trusted with hlisted | ⟨hnone, -⟩
    · exact .inr (congrArg Except.ok hlisted)
    · exact .inl (congrArg Except.ok hnone)

end Provisioned

/-- A client and a server whose files were made with the tools, in any order of their steps and
without interference: neither fails, and from wherever they are both can still return. -/
theorem provisioned_handshake {C : Crypto} {P : Pkcs8 C} {inv : KnownHosts.Invocation C}
    {server : ServerConfig C} {hostsPath : String} {hosts : Hosts} {knownHosts : Option Bytes}
    {quantumInsecure : Bool}
    (h : Provisioned P inv server hostsPath hosts knownHosts quantumInsecure) {V : Verifier}
    (hV : V.Correct C) {clientSign serverSign : PacketSign C} {clientUnique serverUnique : UInt64}
    (hclientSign : inv.newPacketSign = .ok clientSign)
    (hclientUnique : inv.randomU64 = .ok clientUnique)
    (hstarted : server.Started serverSign serverUnique) {w : Pair C}
    (hrun : Pair.Run (inv.config hostsPath hosts knownHosts) server V (Pair.start server) w) :
    (∀ e, w.client ≠ .failed e) ∧ (∀ e, w.server ≠ .failed e) ∧
      ∃ w' clientStream serverStream,
        Pair.Run (inv.config hostsPath hosts knownHosts) server V w w' ∧
          w'.client = .done clientStream ∧ w'.server = .done serverStream := by
  have honest := h.honest hV hclientSign hclientUnique hstarted
  have hstage := Setting.stage_of_run honest hrun
  exact ⟨hstage.client_ne_failed, hstage.server_ne_failed, hstage.finishes honest⟩

/-- The server of key pair 2, whose authorized-keys file has the line of key pair 1. -/
def sampleServer : ServerConfig Crypto.sample where
  connSign := .sample 2
  authorizedKeys := Table.ofList [keyEntry Crypto.sample (ConnSign.sample 1).publicKeyBytes]
  newPacketSign := .ok (.sample 2)
  randomU64 := .ok 7
  coins := []

def Provisioned.sample : Provisioned Pkcs8.sample KnownHosts.sampleInvocation sampleServer
    "known_hosts" .new none false where
  clientPath := "axsh.pk8"
  serverPath := "axshd.pk8"
  authorizedPath := "authorized_keys"
  clientFile := sampleKeyFile 1
  serverFile := sampleKeyFile 2
  authorized := formatAuthorizedConnKey (ConnSign.sample 1).publicKeyBytes ++ ['\n']
  printed := formatAuthorizedConnKey (ConnSign.sample 1).publicKeyBytes ++ ['\n']
  clientKey := ⟨.sample 1, [1], [1]⟩
  serverKey := ⟨.sample 2, [2], [2]⟩
  client_loaded := load_sampleKeyFile 1 _
  server_loaded := load_sampleKeyFile 2 _
  client_connSign := rfl
  server_connSign := rfl
  client_printed := (pubkey_of_builderFromFile (load_sampleKeyFile 1 _)).2
  printed_mem _ hline := hline
  authorized_loaded := by
    have hne := publicKeyBytes_ne_nil (ConnSign.sample 1)
    rw [loadAuthorizedKeys_iff_listed, relevantLines_printed hne]
    exact ⟨[_], .cons (isKeyLine_format hne) .nil, List.nodup_singleton _, rfl⟩
  hosts_loaded := rfl
  trusted := .inr ⟨rfl, KnownHosts.confirm_sample⟩

/-- The sample client and server, from the beginning. -/
theorem provisioned_handshake_sample : ∃ (w : Pair Crypto.sample)
    (clientStream : ClientStream Crypto.sample) (serverStream : ServerStream Crypto.sample),
      w.client = .done clientStream ∧ w.server = .done serverStream := by
  obtain ⟨-, -, w, clientStream, serverStream, -, hclient, hserver⟩ :=
    provisioned_handshake Provisioned.sample (Verifier.correct_acceptAll _) rfl rfl ⟨rfl, rfl⟩ .refl
  exact ⟨w, clientStream, serverStream, hclient, hserver⟩

end Axsh

/-
# Trust on first use

The part of `axsh` that decides which server key to trust, over a whole history of invocations
on one known-hosts file. Each loads the file, looks its host up, and runs a handshake; for a host
that is not listed it shows the user the fingerprint of the key that the server presents, and on
a `yes` it appends an entry, before it signs anything.

The invocations come one after the other. Between them the file may have been left anyhow by an
append that failed in the middle. Still, no entry is ever changed, and all connections that were
established to one host were to one key.
-/

import Axsh.Honest
import Axsh.Keys.Bundle
import Axsh.KnownHosts.Torn
import Mathlib.Logic.Relation

set_option autoImplicit false

namespace Axsh

/-! ## The question -/

/-- The user's terminal, during one question: what is typed, and the errors that the operating
system reports. -/
structure Console where
  question : ℕ → Option (ℕ × FileFault)
  questionFlush : Option FileFault
  reading : Option FileFault
  input : Bytes
  append : AppendFaults
  warning : ℕ → Option (ℕ × FileFault)
  warningFlush : Option FileFault

/-- A call without a value. -/
def ioResult : Option FileFault → Res Unit
  | some fault => .error (.error fault.kind fault.message)
  | none => .ok ()

/-- `Stdin::read_line`: up to and with the first newline, or all that is there. -/
def readLine (fault : Option FileFault) (input : Bytes) : Res Text := do
  ioResult fault
  match fromUtf8? (input.takeWhile (· ≠ 0x0a) ++ (input.dropWhile (· ≠ 0x0a)).take 1) with
  | some line => .ok line
  | none => .error (.error .invalidData "stream did not contain valid UTF-8")

/-- The question of `confirm_and_add_known_host`, one piece for each `write_all`. -/
def questionPieces (host : Text) (fingerprint : String) : List Bytes :=
  [utf8 ("The authenticity of host '".toList ++ host ++ "' can't be established.\n".toList),
    utf8 (connAuthorizedKeyKind ++ (" key fingerprint is " ++ fingerprint ++ ".\n").toList),
    utf8 "Are you sure you want to continue connecting (yes/no)? ".toList]

/-- The last words of `confirm_and_add_known_host`. -/
def warningPiece (host : Text) : Bytes :=
  utf8 ("Warning: Permanently added '".toList ++ host ++ "' (".toList ++ connAuthorizedKeyKind ++
    ") to the list of known hosts.\n".toList)

/-- What a question leaves: the text on the terminal, the file, and its result. -/
structure Confirmation where
  stderr : Bytes
  file : Option Bytes
  result : Res Unit

namespace Console

/-- The text on the terminal, and the line that the user types. -/
def ask (console : Console) (C : Crypto) (host : Text) (publicKey : Bytes) : Bytes × Res Text :=
  let asked := writeAllPieces (questionPieces host (formatSha256Fingerprint C publicKey))
    console.question []
  (asked.1, do
    asked.2
    ioResult console.questionFlush
    readLine console.reading console.input)

/-- The user has answered the question with a yes. -/
def confirms (console : Console) (C : Crypto) (host : Text) (publicKey : Bytes) : Bool :=
  match (console.ask C host publicKey).2 with
  | .ok response => decide (trim response = "yes".toList)
  | .error _ => false

end Console

/-- `confirm_and_add_known_host`. -/
def confirmAndAddKnownHost (C : Crypto) (path : String) (host : Text) (publicKey : Bytes)
    (console : Console) (file : Option Bytes) : Confirmation :=
  let asked := console.ask C host publicKey
  match asked.2 with
  | .error e => ⟨asked.1, file, .error e⟩
  | .ok response =>
    if trim response ≠ "yes".toList then
      ⟨asked.1, file, .error (.error .permissionDenied "server key not accepted")⟩
    else
      let appended := appendKnownHost path host publicKey console.append file
      match appended.2 with
      | .error e => ⟨asked.1, appended.1, .error e⟩
      | .ok () =>
        let warned := writeAllPieces [warningPiece host] console.warning asked.1
        ⟨warned.1, appended.1, do
          warned.2
          ioResult console.warningFlush⟩

section Question

variable {C : Crypto} {path : String} {host : Text} {publicKey : Bytes} {console : Console}
  {file : Option Bytes}

/-- The file is left alone unless the user has said yes, and is then what the append leaves. -/
theorem confirmAndAddKnownHost_file :
    (confirmAndAddKnownHost C path host publicKey console file).file =
      if console.confirms C host publicKey then
        (appendKnownHost path host publicKey console.append file).1
      else file := by
  unfold confirmAndAddKnownHost Console.confirms
  cases hasked : (console.ask C host publicKey).2 with
  | error e => simp [hasked]
  | ok response =>
    by_cases hyes : trim response = "yes".toList
    · cases happend : (appendKnownHost path host publicKey console.append file).2 with
      | error e => simp [hasked, hyes, happend]
      | ok _ => simp [hasked, hyes, happend]
    · have hno : trim response ≠ "yes".toList := hyes
      simp only [hasked, if_pos hno, decide_eq_false hyes, Bool.false_eq_true, if_false]

/-- The key is accepted only after a yes and a complete append. -/
theorem confirmAndAddKnownHost_eq_ok
    (h : (confirmAndAddKnownHost C path host publicKey console file).result = .ok ()) :
    console.confirms C host publicKey = true ∧
      (appendKnownHost path host publicKey console.append file).2 = .ok () := by
  unfold confirmAndAddKnownHost at h
  unfold Console.confirms
  cases hasked : (console.ask C host publicKey).2 with
  | error e => simp [hasked] at h
  | ok response =>
    by_cases hyes : trim response = "yes".toList
    · refine ⟨decide_eq_true hyes, ?_⟩
      cases happend : (appendKnownHost path host publicKey console.append file).2 with
      | error e => simp [hasked, hyes, happend] at h
      | ok _ => rfl
    · have hno : trim response ≠ "yes".toList := hyes
      simp only [hasked, if_pos hno] at h
      cases h

end Question

namespace KnownHosts

/-! ## One invocation -/

/-- One invocation of `axsh`: its address, what the environment gives to its handshake, and what
the operating system and the user answer. -/
structure Invocation (C : Crypto) where
  addr : Text
  addr_fit : HostFit addr
  connSign : ConnSign C
  newPacketSign : Res (PacketSign C)
  randomU64 : Res UInt64
  coins : Bytes
  loading : Option FileFault
  console : Console

/-- The file, and the story so far: the connections that were established, with their server
keys, and the keys that the user was asked about and confirmed. -/
structure History where
  file : Option Bytes
  connected : List (Text × Bytes)
  confirmed : List (Text × Bytes)

/-- Before the first invocation. -/
def History.begin (file : Option Bytes) : History := ⟨file, [], []⟩

/-- The keys that the application was asked about. -/
def askedKeys (trace : List Event) : List Bytes :=
  trace.filterMap fun event =>
    match event with
    | .asked _ publicKey _ => some publicKey
    | _ => none

/-- The handshake has returned a connection. -/
def returned {K R : Type} : Task K R → Bool
  | .done _ => true
  | _ => false

namespace Invocation

variable {C : Crypto} (self : Invocation C)

/-- What `main` hands to the handshake. A listed host has been checked already. -/
def config (path : String) (hosts : Hosts) (file : Option Bytes) : ClientConfig C where
  connSign := self.connSign
  lookupServerPubkey _ := .ok (hosts self.addr)
  acceptServerPubkey _ publicKey :=
    if (hosts self.addr).isSome then .ok ()
    else (confirmAndAddKnownHost C path self.addr publicKey self.console file).result
  newPacketSign := self.newPacketSign
  randomU64 := self.randomU64
  coins := self.coins

/-- What the callback does about a key. -/
def afterKey (path : String) (hosts : Hosts) (w : History) (publicKey : Bytes) : History :=
  if (hosts self.addr).isSome then w
  else
    { w with
      file := (confirmAndAddKnownHost C path self.addr publicKey self.console w.file).file
      confirmed := w.confirmed ++
        if self.console.confirms C self.addr publicKey then [(self.addr, publicKey)] else [] }

/-- The history after an invocation, which may end, or be ended, anywhere in its handshake. -/
def after (path : String) (hosts : Hosts) (w : History) (s : ClientSession C) : History :=
  let asked := (askedKeys s.trace).foldl (self.afterKey path hosts) w
  { asked with
    connected := asked.connected ++
      if returned s.task then (askedKeys s.trace).map (Prod.mk self.addr) else [] }

end Invocation

/-- One invocation: `load_known_hosts` refuses the file and `axsh` ends, or a handshake is run
with what it has loaded. -/
inductive Invoked (C : Crypto) (path : String) (verdicts : Verifier → Prop) :
    History → History → Prop
  | refused (w : History) (inv : Invocation C) (e : Failure)
      (hload : loadKnownHosts path inv.loading w.file = .error e) : Invoked C path verdicts w w
  | ran (w : History) (inv : Invocation C) (hosts : Hosts) (s : ClientSession C)
      (hload : loadKnownHosts path inv.loading w.file = .ok hosts)
      (hrun : (inv.config path hosts w.file).Run verdicts ClientConfig.session s) :
      Invoked C path verdicts w (inv.after path hosts w s)

/-! ## What one invocation does -/

section Keys

variable {C : Crypto} {cfg : ClientConfig C} {verdicts : Verifier → Prop} {hello : ServerHello}
  {publicKey : Bytes} {lead trace : List Event}

theorem askedKeys_append (first second : List Event) :
    askedKeys (first ++ second) = askedKeys first ++ askedKeys second := List.filterMap_append

theorem askedKeys_source (h : cfg.KeySource hello publicKey lead) : askedKeys lead = [] := by
  cases h with
  | known | fetched => rfl

/-- The application is asked about one key at most. -/
theorem askedKeys_script (h : cfg.Script trace) :
    askedKeys trace = [] ∨ ∃ publicKey, askedKeys trace = [publicKey] := by
  cases h with
  | nil | badHello | requested | badKey => exact .inl rfl
  | keyed hsource => exact .inl (askedKeys_source hsource)
  | @asked _ publicKey _ hsource _ =>
    refine .inr ⟨publicKey, ?_⟩
    rw [askedKeys_append, askedKeys_source hsource]
    rfl
  | @answered _ publicKey _ _ _ hanswered =>
    refine .inr ⟨publicKey, ?_⟩
    rw [askedKeys_append, askedKeys_source hanswered.source]
    rfl
  | @closed _ publicKey _ _ _ hanswered _ =>
    refine .inr ⟨publicKey, ?_⟩
    rw [askedKeys_append, askedKeys_append, askedKeys_source hanswered.source]
    rfl

/-- A connection is returned under the one key that was asked about, which was accepted and was
that of the lookup, if it had one. -/
theorem askedKeys_of_returned {s : ClientSession C} (hrun : cfg.Run verdicts ClientConfig.session s)
    (hdone : returned s.task = true) : ∃ hello publicKey, askedKeys s.trace = [publicKey] ∧
      cfg.acceptServerPubkey hello publicKey = .ok () ∧
      (cfg.lookupServerPubkey hello = .ok (some publicKey) ∨
        cfg.lookupServerPubkey hello = .ok none) := by
  have hfollows := hrun.follows
  cases htask : s.task with
  | done stream =>
    rw [htask] at hfollows
    obtain ⟨_, _, hello, publicKey, _, _, lead, _, -, hanswered, -, -, htrace⟩ := hfollows
    refine ⟨hello, publicKey, ?_, hanswered.accepted, ?_⟩
    · rw [htrace, askedKeys_append, askedKeys_append, askedKeys_source hanswered.source]
      rfl
    · cases hanswered.source with
      | known hlookup => exact .inl hlookup
      | fetched hlookup => exact .inr hlookup
  | _ => simp [htask, returned] at hdone

end Keys

section After

variable {C : Crypto} {path : String} {verdicts : Verifier → Prop} {inv : Invocation C}
  {hosts : Hosts} {w : History} {s : ClientSession C}

/-- What an invocation does: nothing; or it connects to the key that is listed; or, when its host
is not listed, the user has confirmed a key, whose entry has been appended, in part or, if there
is a connection, as a whole. -/
inductive Outcome (inv : Invocation C) (path : String) (hosts : Hosts) (w : History) :
    History → Prop
  | nothing : Outcome inv path hosts w w
  | connected (publicKey : Bytes) (hlisted : hosts inv.addr = some publicKey) :
      Outcome inv path hosts w { w with connected := w.connected ++ [(inv.addr, publicKey)] }
  | confirmed (publicKey : Bytes) (hunlisted : hosts inv.addr = none)
      (connections : List (Text × Bytes))
      (hconnections : connections = [] ∨ connections = [(inv.addr, publicKey)] ∧
        (appendKnownHost path inv.addr publicKey inv.console.append w.file).2 = .ok ()) :
      Outcome inv path hosts w
        { file := (appendKnownHost path inv.addr publicKey inv.console.append w.file).1
          connected := w.connected ++ connections
          confirmed := w.confirmed ++ [(inv.addr, publicKey)] }

/-- An invocation for a listed host leaves the file alone. -/
theorem after_listed {known publicKey : Bytes} (hlisted : hosts inv.addr = some known)
    (hasked : askedKeys s.trace = [publicKey]) : inv.after path hosts w s =
      { w with connected := w.connected ++
        if returned s.task then [(inv.addr, publicKey)] else [] } := by
  simp [Invocation.after, Invocation.afterKey, hasked, hlisted]

/-- An invocation for a host that is not listed appends the key that the user confirms. -/
theorem after_unlisted {publicKey : Bytes} (hunlisted : hosts inv.addr = none)
    (hasked : askedKeys s.trace = [publicKey])
    (hyes : inv.console.confirms C inv.addr publicKey = true) : inv.after path hosts w s =
      { file := (appendKnownHost path inv.addr publicKey inv.console.append w.file).1
        connected := w.connected ++ if returned s.task then [(inv.addr, publicKey)] else []
        confirmed := w.confirmed ++ [(inv.addr, publicKey)] } := by
  simp [Invocation.after, Invocation.afterKey, hasked, hunlisted, hyes, confirmAndAddKnownHost_file]

theorem outcome_of_run (hrun : (inv.config path hosts w.file).Run verdicts ClientConfig.session s) :
    Outcome inv path hosts w (inv.after path hosts w s) := by
  have hreturned := askedKeys_of_returned hrun
  rcases askedKeys_script hrun.follows.script with hnone | ⟨publicKey, hasked⟩
  · -- Without a question there is no connection.
    have hnot : returned s.task = false := by
      by_contra hdone
      obtain ⟨_, key, hkey, -⟩ := hreturned (Bool.not_eq_false _ ▸ hdone)
      cases hnone.symm.trans hkey
    have hsame : inv.after path hosts w s = w := by simp [Invocation.after, hnone, hnot]
    rw [hsame]
    exact .nothing
  cases hlookup : hosts inv.addr with
  | some known =>
    rw [after_listed hlookup hasked]
    by_cases hdone : returned s.task = true
    · obtain ⟨_, key, hkey, -, hsource⟩ := hreturned hdone
      obtain rfl : publicKey = key := List.singleton_inj.mp (hasked.symm.trans hkey)
      rw [if_pos hdone]
      refine .connected publicKey ?_
      rcases hsource with hknown | hfetched
      · exact Except.ok.inj hknown
      · cases hlookup.symm.trans (Except.ok.inj hfetched)
    · rw [if_neg hdone, List.append_nil]
      exact .nothing
  | none =>
    -- A connection takes an accepted key, and that a yes and a complete append.
    have haccepted : returned s.task = true →
        inv.console.confirms C inv.addr publicKey = true ∧
          (appendKnownHost path inv.addr publicKey inv.console.append w.file).2 = .ok () := by
      intro hdone
      obtain ⟨hello, key, hkey, haccept, -⟩ := hreturned hdone
      obtain rfl : publicKey = key := List.singleton_inj.mp (hasked.symm.trans hkey)
      have hresult : (inv.config path hosts w.file).acceptServerPubkey hello publicKey =
          (confirmAndAddKnownHost C path inv.addr publicKey inv.console w.file).result := by
        simp [Invocation.config, hlookup]
      exact confirmAndAddKnownHost_eq_ok (hresult ▸ haccept)
    by_cases hyes : inv.console.confirms C inv.addr publicKey = true
    · rw [after_unlisted hlookup hasked hyes]
      refine .confirmed publicKey hlookup _ ?_
      by_cases hdone : returned s.task = true
      · exact .inr ⟨if_pos hdone, (haccepted hdone).2⟩
      · exact .inl (if_neg hdone)
    · have hnot : returned s.task = false := by
        by_contra hdone
        exact hyes (haccepted (Bool.not_eq_false _ ▸ hdone)).1
      have hsame : inv.after path hosts w s = w := by
        simp [Invocation.after, Invocation.afterKey, hasked, hlookup, hyes, hnot,
          confirmAndAddKnownHost_file]
      rw [hsame]
      exact .nothing

end After

/-! ## Pinning -/

/-- Where a key comes from: the first file listed it, or the user has confirmed a key that it
begins, and the first file did not list the host. -/
def Origin (hosts : Hosts) (w : History) (host : Text) (publicKey : Bytes) : Prop :=
  hosts host = some publicKey ∨
    hosts host = none ∧ ∃ confirmed, (host, confirmed) ∈ w.confirmed ∧ publicKey <+: confirmed

/-- What holds of a history that began with a file that lists `hosts`. -/
structure Pinned (path : String) (hosts : Hosts) (w : History) : Prop where
  unique : ∀ host key key', (host, key) ∈ w.connected → (host, key') ∈ w.connected → key = key'
  origin : ∀ host key, (host, key) ∈ w.connected → Origin hosts w host key
  loaded : ∀ later, loadKnownHosts path none w.file = .ok later → ∀ host key,
    (hosts host = some key → later host = some key) ∧
    ((host, key) ∈ w.connected → later host = some key) ∧
    (later host = some key → Origin hosts w host key)

section Pinned

variable {C : Crypto} {path : String} {verdicts : Verifier → Prop} {inv : Invocation C}
  {hosts later : Hosts} {w w' : History} {host : Text} {key : Bytes}

theorem pinned_begin {file : Option Bytes} (hload : loadKnownHosts path none file = .ok hosts) :
    Pinned path hosts (.begin file) where
  unique _ _ _ hmem := absurd hmem List.not_mem_nil
  origin _ _ hmem := absurd hmem List.not_mem_nil
  loaded later hlater host key := by
    obtain rfl : hosts = later := Except.ok.inj (hload.symm.trans hlater)
    exact ⟨id, fun hmem => absurd hmem List.not_mem_nil, .inl⟩

theorem Origin.mono (h : Origin hosts w host key) (hsubset : w.confirmed ⊆ w'.confirmed) :
    Origin hosts w' host key := by
  rcases h with hlisted | ⟨hnone, confirmed, hmem, hkey⟩
  · exact .inl hlisted
  · exact .inr ⟨hnone, confirmed, hsubset hmem, hkey⟩

/-- An invocation keeps what is pinned. -/
theorem Pinned.outcome (h : Pinned path hosts w)
    (hload : loadKnownHosts path none w.file = .ok later)
    (hout : Outcome inv path later w w') : Pinned path hosts w' := by
  cases hout with
  | nothing => exact h
  | connected publicKey hlisted =>
    -- Earlier connections to the host were to the key that is listed, as this one.
    have hkeys : ∀ host key, (host, key) ∈ w.connected ++ [(inv.addr, publicKey)] →
        later host = some key := by
      intro host key hmem
      rcases List.mem_append.mp hmem with hmem | hmem
      · exact (h.loaded later hload host key).2.1 hmem
      · obtain ⟨rfl, rfl⟩ := Prod.mk.inj (List.mem_singleton.mp hmem)
        exact hlisted
    refine ⟨fun host key key' hkey hkey' => ?_, fun host key hmem => ?_,
      fun again hagain host key => ?_⟩
    · exact Option.some.inj ((hkeys host key hkey).symm.trans (hkeys host key' hkey'))
    · exact (h.loaded later hload host key).2.2 (hkeys host key hmem)
    · obtain rfl : later = again := Except.ok.inj (hload.symm.trans hagain)
      exact ⟨(h.loaded later hload host key).1, hkeys host key, (h.loaded later hload host key).2.2⟩
  | confirmed publicKey hunlisted connections hconnections =>
    have hfirst : hosts inv.addr = none := by
      cases hlisted : hosts inv.addr with
      | none => rfl
      | some key => cases hunlisted.symm.trans ((h.loaded later hload inv.addr key).1 hlisted)
    -- This is the first connection to the host.
    have hnew : ∀ key, (inv.addr, key) ∉ w.connected := by
      intro key hmem
      cases hunlisted.symm.trans ((h.loaded later hload inv.addr key).2.1 hmem)
    have hconnected : ∀ host key, (host, key) ∈ w.connected ++ connections →
        (host, key) ∈ w.connected ∨ host = inv.addr ∧ key = publicKey ∧
          (appendKnownHost path inv.addr publicKey inv.console.append w.file).2 = .ok () := by
      intro host key hmem
      rcases List.mem_append.mp hmem with hmem | hmem
      · exact .inl hmem
      rcases hconnections with rfl | ⟨rfl, happend⟩
      · exact absurd hmem List.not_mem_nil
      · obtain ⟨rfl, rfl⟩ := Prod.mk.inj (List.mem_singleton.mp hmem)
        exact .inr ⟨rfl, rfl, happend⟩
    have horigin : ∀ key, key <+: publicKey →
        Origin hosts ⟨(appendKnownHost path inv.addr publicKey inv.console.append w.file).1,
          w.connected ++ connections, w.confirmed ++ [(inv.addr, publicKey)]⟩ inv.addr key :=
      fun key hkey => .inr ⟨hfirst, publicKey, by simp, hkey⟩
    have hmono {host : Text} {key : Bytes} (horigin : Origin hosts w host key) :
        Origin hosts ⟨(appendKnownHost path inv.addr publicKey inv.console.append w.file).1,
          w.connected ++ connections, w.confirmed ++ [(inv.addr, publicKey)]⟩ host key :=
      horigin.mono (List.subset_append_left _ _)
    refine ⟨fun host key key' hkey hkey' => ?_, fun host key hmem => ?_,
      fun again hagain host key => ?_⟩
    · rcases hconnected host key hkey with hmem | ⟨rfl, rfl, -⟩
      · rcases hconnected host key' hkey' with hmem' | ⟨rfl, rfl, -⟩
        · exact h.unique host key key' hmem hmem'
        · exact absurd hmem (hnew key)
      · rcases hconnected _ key' hkey' with hmem' | ⟨-, rfl, -⟩
        · exact absurd hmem' (hnew key')
        · rfl
    · rcases hconnected host key hmem with hmem | ⟨rfl, rfl, -⟩
      · exact hmono (h.origin host key hmem)
      · exact horigin key (List.prefix_refl key)
    · obtain ⟨hkept, hmem, hfrom⟩ := h.loaded later hload host key
      have hwritten := loadKnownHosts_written hload inv.addr_fit hagain
      have happended := loadKnownHosts_appended hload inv.addr_fit hagain
      -- The entries that were there are for other hosts than the one that is new.
      have hold : later host = some key → again host = some key := by
        intro hlisted
        rcases hwritten with rfl | ⟨-, _, -, -, rfl⟩
        · exact hlisted
        · rw [Function.update_of_ne, hlisted]
          rintro rfl
          cases hunlisted.symm.trans hlisted
      refine ⟨fun hlisted => hold (hkept hlisted), fun hconn => ?_, fun hlisted => ?_⟩
      · rcases hconnected host key hconn with hconn | ⟨rfl, rfl, happend⟩
        · exact hold (hmem hconn)
        · rw [(happended happend).2, Function.update_self]
      · rcases hwritten with rfl | ⟨-, front, -, hfront, rfl⟩
        · exact hmono (hfrom hlisted)
        · by_cases haddr : host = inv.addr
          · subst haddr
            rw [Function.update_self] at hlisted
            exact horigin key (Option.some.inj hlisted ▸ hfront)
          · rw [Function.update_of_ne haddr] at hlisted
            exact hmono (hfrom hlisted)

/-- A file that is loaded was read without an error. -/
theorem loading_eq_none {fault : Option FileFault} {file : Option Bytes}
    (hload : loadKnownHosts path fault file = .ok hosts) :
    loadKnownHosts path none file = .ok hosts := by
  rcases fault with - | ⟨kind, message, hne⟩
  · exact hload
  · cases kind with
    | notFound => exact absurd rfl hne
    | _ => simp [loadKnownHosts, fsReadToString, fsRead] at hload

theorem Pinned.step (h : Pinned path hosts w) (hstep : Invoked C path verdicts w w') :
    Pinned path hosts w' := by
  cases hstep with
  | refused inv e hload => exact h
  | ran inv later s hload hrun => exact h.outcome (loading_eq_none hload) (outcome_of_run hrun)

theorem Pinned.run (h : Pinned path hosts w)
    (hrun : Relation.ReflTransGen (Invoked C path verdicts) w w') : Pinned path hosts w' := by
  induction hrun with
  | refl => exact h
  | tail _ hstep ih => exact ih.step hstep

end Pinned

/-- Over every history of invocations on a known-hosts file, whatever servers they meet, whatever
users answer and wherever appends fail: all connections to one host were to one key. That key the
file listed at the beginning, or the host was not listed and a user has confirmed the key, or one
that the key begins. As long as the file can be loaded at all, it has every entry that it had at
the beginning and one for every connection, and no entry of any other origin. -/
theorem connections_pinned (C : Crypto) (path : String) (verdicts : Verifier → Prop)
    (file : Option Bytes) (hosts : Hosts) (w : History)
    (hload : loadKnownHosts path none file = .ok hosts)
    (hrun : Relation.ReflTransGen (Invoked C path verdicts) (.begin file) w) :
    (∀ host key key', (host, key) ∈ w.connected → (host, key') ∈ w.connected → key = key') ∧
    (∀ host key, (host, key) ∈ w.connected → Origin hosts w host key) ∧
    ∀ later, loadKnownHosts path none w.file = .ok later → ∀ host key,
      (hosts host = some key → later host = some key) ∧
      ((host, key) ∈ w.connected → later host = some key) ∧
      (later host = some key → Origin hosts w host key) := by
  have hpinned := (pinned_begin hload).run hrun
  exact ⟨hpinned.unique, hpinned.origin, hpinned.loaded⟩

/-! ## A sample history -/

section Fetched

variable {C : Crypto} {cfg : ClientConfig C} {hello : ServerHello} {publicKey signature : Bytes}
  {packetSign : PacketSign C} {unique : UInt64}

/-- A client whose lookup does not know the key of a hello, which gets that key and accepts it,
and receives the signature of its holder, has established the connection. -/
theorem afterAll_fetched (moment : Moment)
    (hsize : (Hdlc.encode (packetTypeServerPubkey :: publicKey)).length ≤ Hdlc.maxFrameSize)
    (hlookup : cfg.lookupServerPubkey hello = .ok none)
    (hdigest : hello.connSignPublicKeySha256 = C.sha256 publicKey)
    (haccept : cfg.acceptServerPubkey hello publicKey = .ok ())
    (hkey : cfg.newPacketSign = .ok packetSign) (hunique : cfg.randomU64 = .ok unique)
    (hverified : cfg.Verified moment.V hello publicKey packetSign unique signature) :
    ∃ stream trace sent, (ClientConfig.session : ClientSession C).afterAll (cfg.resume moment)
        (frameAnswers (helloWire hello) ++ (sendAnswers [packetTypeRequestServerPubkey] ++
          (frameAnswers (packetTypeServerPubkey :: publicKey) ++
            (sendAnswers (cfg.clientHelloWire hello packetSign unique) ++
              frameAnswers (packetTypeServerComplete :: signature))))) =
        ⟨.done stream, trace, sent⟩ ∧ askedKeys trace = [publicKey] := by
  have hhello : cfg.resume moment .serverHello (Hdlc.encode (helloWire hello)) = _ :=
    ClientConfig.onServerHello_of_none (Hdlc.decode_encode (fits_helloWire hello)) hlookup
  have hpubkey : cfg.resume moment (.serverPubkey (helloWire hello) hello)
      (Hdlc.encode (packetTypeServerPubkey :: publicKey)) = _ :=
    ClientConfig.onServerPubkey_of_decode (Hdlc.decode_encode hsize)
  rw [ClientConfig.onPublicKey_of_accepted hdigest haccept hkey hunique] at hpubkey
  have hstart : (ClientConfig.session : ClientSession C) = ⟨.readFrame .serverHello, [], []⟩ := rfl
  rw [hstart, Session.afterAll_append, Session.afterAll_frame (fits_helloWire hello), hhello,
    Session.afterAll_append]
  simp only [Task.ofAct]
  rw [Session.afterAll_send, Session.afterAll_append, ← helloWire, Session.afterAll_frame hsize,
    hpubkey, Session.afterAll_append]
  simp only [Task.ofAct]
  rw [Session.afterAll_send, ClientConfig.afterAll_complete moment hverified.length
    hverified.verified]
  exact ⟨_, _, _, rfl, rfl⟩

end Fetched

/-- The key of the sample server. -/
def sampleKey : Bytes := (ConnSign.sample 2).publicKeyBytes

/-- The sample client, with a user who types a yes. -/
def sampleInvocation : Invocation Crypto.sample where
  addr := ['h']
  addr_fit := hostFit_sample
  connSign := .sample 1
  newPacketSign := .ok (.sample 1)
  randomU64 := .ok 0
  coins := []
  loading := none
  console := ⟨fun _ => none, none, none, utf8 "yes\n".toList, .none, fun _ => none, none⟩

/-- The sample client's configuration. -/
abbrev sampleConfig (hosts : Hosts) (file : Option Bytes) : ClientConfig Crypto.sample :=
  sampleInvocation.config "known_hosts" hosts file

/-- The file after the append of the sample server's entry. -/
def sampleFile : Option Bytes := (appendKnownHost "known_hosts" ['h'] sampleKey .none none).1

/-- The entries in that file. -/
def sampleHosts : Hosts := Function.update Hosts.new ['h'] (some sampleKey)

theorem append_sampleKey : (appendKnownHost "known_hosts" ['h'] sampleKey .none none).2 = .ok () :=
  congrArg Prod.snd (appendKnownHost_none rfl)

theorem load_sampleFile : loadKnownHosts "known_hosts" none sampleFile = .ok sampleHosts := by
  have hkey : sampleKey ≠ [] := List.cons_ne_nil _ _
  have hempty : loadKnownHosts "known_hosts" none none = .ok Hosts.new := rfl
  obtain ⟨n, hline⟩ := loadKnownHosts_append hempty hostFit_sample append_sampleKey
  rwa [loadLine_formatKnownHost hostFit_sample hkey] at hline

theorem ask_sample : (sampleInvocation.console.ask Crypto.sample ['h'] sampleKey).2 =
    .ok "yes\n".toList := by
  have hline : (utf8 "yes\n".toList).takeWhile (· ≠ 0x0a) ++
      ((utf8 "yes\n".toList).dropWhile (· ≠ 0x0a)).take 1 = utf8 "yes\n".toList := by decide
  simp only [Console.ask, sampleInvocation, writeAllPieces_none, readLine, ioResult, ok_bind, hline,
    fromUtf8?_utf8]

theorem confirm_sample :
    (confirmAndAddKnownHost Crypto.sample "known_hosts" ['h'] sampleKey sampleInvocation.console
      none).result = .ok () := by
  have hyes : ¬ trim "yes\n".toList ≠ "yes".toList := by decide
  have happend : (appendKnownHost "known_hosts" ['h'] sampleKey sampleInvocation.console.append
      none).2 = .ok () := append_sampleKey
  simp only [confirmAndAddKnownHost, ask_sample, if_neg hyes, happend]
  rfl

/-- The signature that the sample server gives passes at the sample client. -/
theorem verified_sample (hosts : Hosts) (file : Option Bytes) :
    (sampleConfig hosts file).Verified .acceptAll (sampleHello 2 7) sampleKey (.sample 1) 0
      ((ConnSign.sample 2).signature [] []) := by
  have hlen := (ConnSign.sample 2).length_signature [] []
  exact ⟨hlen, (ConnVerify.verifyDetached_eq_true_iff_accepts _ hlen _).mpr
    ⟨hlen, _, _, (ConnSign.sample 2).decode_publicKeyBytes, fun _ => rfl, rfl⟩⟩

/-- After the first connection to the sample server, and after the second. -/
def sampleFirst : History := ⟨sampleFile, [(['h'], sampleKey)], [(['h'], sampleKey)]⟩

def sampleSecond : History :=
  { sampleFirst with connected := sampleFirst.connected ++ [(['h'], sampleKey)] }

theorem digest_sampleKey :
    (sampleHello 2 7).connSignPublicKeySha256 = Crypto.sample.sha256 sampleKey := rfl

/-- The sample client meets the sample server: its user says yes, and the entry is in the file. -/
theorem invoked_unlisted :
    Invoked Crypto.sample "known_hosts" (· = .acceptAll) (.begin none) sampleFirst := by
  have hlookup : (sampleConfig .new none).lookupServerPubkey (sampleHello 2 7) = .ok none := rfl
  obtain ⟨stream, trace, sent, hdone, hasked⟩ := afterAll_fetched ⟨.acceptAll, 0⟩
    (Setting.Honest.fits_pubkey (.sample 2)) hlookup digest_sampleKey confirm_sample rfl rfl
    (verified_sample _ _)
  have hrun : (sampleConfig .new none).Run (· = .acceptAll) ClientConfig.session
      ⟨.done stream, trace, sent⟩ := by
    rw [← hdone]
    exact ClientConfig.Run.afterAll _ (· = .acceptAll) rfl _ _
  have hafter :
      sampleInvocation.after "known_hosts" .new (.begin none) ⟨.done stream, trace, sent⟩ =
        sampleFirst :=
    after_unlisted rfl hasked (confirmAndAddKnownHost_eq_ok confirm_sample).1
  rw [← hafter]
  exact .ran _ sampleInvocation _ _ rfl hrun

/-- The sample client meets the server again, and finds its key in the file. -/
theorem invoked_listed :
    Invoked Crypto.sample "known_hosts" (· = .acceptAll) sampleFirst sampleSecond := by
  have hlookup : sampleHosts ['h'] = some sampleKey := Function.update_self ..
  have haccept : (sampleConfig sampleHosts sampleFile).acceptServerPubkey (sampleHello 2 7)
      sampleKey = .ok () := by
    simp [sampleConfig, Invocation.config, sampleInvocation, hlookup]
  have hanswers : ∃ stream trace sent, (ClientConfig.session : ClientSession Crypto.sample).afterAll
      ((sampleConfig sampleHosts sampleFile).resume ⟨.acceptAll, 0⟩)
      (frameAnswers (helloWire (sampleHello 2 7)) ++
        sendAnswers ((sampleConfig sampleHosts sampleFile).clientHelloWire (sampleHello 2 7)
          (.sample 1) 0) ++
        frameAnswers (packetTypeServerComplete :: (ConnSign.sample 2).signature [] [])) =
        ⟨.done stream, trace, sent⟩ ∧ askedKeys trace = [sampleKey] :=
    ⟨_, _, _, ClientConfig.afterAll_established ⟨.acceptAll, 0⟩ (congrArg Except.ok hlookup)
      digest_sampleKey haccept rfl rfl (verified_sample _ _), rfl⟩
  obtain ⟨stream, trace, sent, hdone, hasked⟩ := hanswers
  have hrun : (sampleConfig sampleHosts sampleFile).Run (· = .acceptAll) ClientConfig.session
      ⟨.done stream, trace, sent⟩ := by
    rw [← hdone]
    exact ClientConfig.Run.afterAll _ (· = .acceptAll) rfl _ _
  have hafter : sampleInvocation.after "known_hosts" sampleHosts sampleFirst
      ⟨.done stream, trace, sent⟩ = sampleSecond := after_listed hlookup hasked
  rw [← hafter]
  exact .ran _ sampleInvocation _ _ load_sampleFile hrun

/-- Two connections to the sample server, the first of which its user has confirmed. -/
theorem connections_pinned_sampleSecond :
    sampleSecond.connected = [(['h'], sampleKey), (['h'], sampleKey)] ∧
      sampleSecond.confirmed = [(['h'], sampleKey)] ∧
      Origin Hosts.new sampleSecond ['h'] sampleKey := by
  obtain ⟨-, horigin, -⟩ := connections_pinned Crypto.sample "known_hosts" (· = .acceptAll) none
    Hosts.new sampleSecond rfl (.tail (.single invoked_unlisted) invoked_listed)
  exact ⟨rfl, rfl, horigin _ _ List.mem_cons_self⟩

end KnownHosts

end Axsh

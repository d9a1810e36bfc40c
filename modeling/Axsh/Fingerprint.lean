/-
# The fingerprint tool

The loader of `axsh-fingerprint` takes a file with one key. It tells the two kinds of lines
apart by counting words, where the loaders of `axsh` and `axshd` cut a line at single spaces.
What it returns is nevertheless the key that one of these two loads from the same file, and
the other one refuses the file, since the base64 of a key has no space in it.
-/

import Axsh.AuthorizedKeys

set_option autoImplicit false

namespace Axsh

/-! ## Loading one key -/

/-- The key of a line, by the number of its words. -/
def parsePublicKeyLine (line : Text) : Res Bytes :=
  match (splitWhitespace line).length with
  | 2 => parseAuthorizedConnKey line
  | 3 => do
    let (_, key) ← parseKnownHost line
    .ok key
  | _ => bail "expected 'mldsa-ed25519 <base64>' or '<host> mldsa-ed25519 <base64>'"

/-- The loop body of `load_public_key`, on a line and its index. -/
def loadPublicKeyLine (path : String) (publicKey : Option Bytes) (entry : Text × ℕ) :
    Res (Option Bytes) :=
  let line := trim entry.1
  if line = [] ∨ line.head? = some '#' then .ok publicKey
  else
    match parsePublicKeyLine line with
    | .error (.error _ message) =>
      .error (.error .invalidData (path ++ ":" ++ toString (entry.2 + 1) ++ ": " ++ message))
    | .error (.panic message) => .error (.panic message)
    | .ok key =>
      if publicKey.isSome then
        .error (.error .invalidData (path ++ ": expected exactly one public key entry"))
      else .ok (some key)

/-- `load_public_key`; `path` is the file's name as `{path:?}` shows it. -/
def loadPublicKey (path : String) (fault : Option FileFault) (file : Option Bytes) : Res Bytes :=
  match fsReadToString fault file with
  | .ok contents => do
    match ← (lines contents).zipIdx.foldlM (loadPublicKeyLine path) none with
    | some key => .ok key
    | none => .error (.error .invalidData (path ++ ": no public key entry found"))
  | .error (.error kind message) =>
    .error (.error kind ("failed to read public key file " ++ path ++ ": " ++ message))
  | .error (.panic message) => .error (.panic message)

section Loading

variable {path : String} {contents : Text} {key : Bytes}

theorem loadPublicKeyLine_of_irrelevant (publicKey : Option Bytes) {entry : Text × ℕ}
    (h : relevant (trim entry.1) = false) :
    loadPublicKeyLine path publicKey entry = .ok publicKey :=
  if_pos (not_not.mp (relevant_iff.not.mp (Bool.eq_false_iff.mp h)))

/-- A relevant line is loaded into an empty place only. -/
theorem loadPublicKeyLine_eq_ok_iff {publicKey publicKey' : Option Bytes} {entry : Text × ℕ}
    (h : relevant (trim entry.1) = true) :
    loadPublicKeyLine path publicKey entry = .ok publicKey' ↔ publicKey = none ∧
      ∃ key, parsePublicKeyLine (trim entry.1) = .ok key ∧ publicKey' = some key := by
  simp only [loadPublicKeyLine, if_neg (relevant_iff.mp h)]
  cases hparse : parsePublicKeyLine (trim entry.1) with
  | error e => cases e <;> simp
  | ok key => cases publicKey <;> simp [eq_comm]

/-- A loop that ends with a key has met one relevant line. -/
theorem foldlM_loadPublicKeyLine_iff {entries : List (Text × ℕ)}
    (h : ∀ entry ∈ entries, relevant (trim entry.1) = true) :
    entries.foldlM (loadPublicKeyLine path) none = .ok (some key) ↔
      ∃ entry, entries = [entry] ∧ parsePublicKeyLine (trim entry.1) = .ok key := by
  cases entries with
  | nil => simp [pure, Except.pure]
  | cons entry entries =>
    have hfirst := h entry List.mem_cons_self
    rw [List.foldlM_cons, bind_eq_ok]
    constructor
    · rintro ⟨publicKey, hstep, hrest⟩
      obtain ⟨-, found, hparse, rfl⟩ := (loadPublicKeyLine_eq_ok_iff hfirst).mp hstep
      cases entries with
      | nil =>
        obtain rfl := Option.some.inj (Except.ok.inj hrest)
        exact ⟨entry, rfl, hparse⟩
      | cons second entries =>
        -- The place is taken, so a second line fails.
        have hsecond := h second (List.mem_cons_of_mem _ List.mem_cons_self)
        rw [List.foldlM_cons, bind_eq_ok] at hrest
        obtain ⟨next, hnext, -⟩ := hrest
        cases ((loadPublicKeyLine_eq_ok_iff hsecond).mp hnext).1
    · rintro ⟨only, honly, hparse⟩
      obtain ⟨rfl, rfl⟩ := List.cons.inj honly
      exact ⟨some key, (loadPublicKeyLine_eq_ok_iff hfirst).mpr ⟨rfl, key, hparse, rfl⟩, rfl⟩

/-- The tool returns the key of the only relevant line. -/
theorem loadPublicKey_eq_ok_iff :
    loadPublicKey path none (some (utf8 contents)) = .ok key ↔
      ∃ line, relevantLines contents = [line] ∧ parsePublicKeyLine line = .ok key := by
  have hread : loadPublicKey path none (some (utf8 contents)) = .ok key ↔
      (lines contents).zipIdx.foldlM (loadPublicKeyLine path) none = .ok (some key) := by
    simp only [loadPublicKey, fsReadToString, fsRead, ok_bind, fromUtf8?_utf8]
    rw [bind_eq_ok]
    constructor
    · rintro ⟨publicKey, hloop, hkey⟩
      cases publicKey with
      | none => cases hkey
      | some found => rw [hloop, Except.ok.inj hkey]
    · intro hloop
      exact ⟨some key, hloop, rfl⟩
  have hfilter : ((lines contents).zipIdx.filter fun entry => relevant (trim entry.1)).foldlM
      (loadPublicKeyLine path) none =
      (lines contents).zipIdx.foldlM (loadPublicKeyLine path) none :=
    Table.foldlM_filter (fun publicKey entry => loadPublicKeyLine_of_irrelevant publicKey) _ _
  rw [hread, ← hfilter, foldlM_loadPublicKeyLine_iff fun entry hmem => (List.mem_filter.mp hmem).2,
    ← map_filter_zipIdx]
  constructor
  · rintro ⟨entry, hentries, hparse⟩
    exact ⟨trim entry.1, by rw [hentries]; rfl, hparse⟩
  · rintro ⟨line, hlines, hparse⟩
    obtain ⟨entry, hentries, rfl⟩ := List.map_eq_singleton_iff.mp hlines
    exact ⟨entry, hentries, hparse⟩

end Loading

/-! ## Lines of hosts -/

/-- A line that lists a host's key: the host, one space, and the line of its key. -/
def IsHostLine (line host : Text) (key : Bytes) : Prop :=
  ∃ keyLine, line = host ++ ' ' :: keyLine ∧ ' ' ∉ host ∧ host ≠ [] ∧ IsKeyLine keyLine key

theorem parseKnownHost_eq_ok_iff {line host : Text} {key : Bytes} :
    parseKnownHost line = .ok (host, key) ↔ IsHostLine line host key := by
  unfold parseKnownHost
  constructor
  · intro h
    cases hsplit : splitOnce ' ' line with
    | none =>
      rw [hsplit] at h
      cases h
    | some parts =>
      obtain ⟨name, keyLine⟩ := parts
      simp only [hsplit] at h
      split_ifs at h with hnil
      · cases h
      · obtain ⟨found, hfound, hpair⟩ := bind_eq_ok.mp h
        obtain ⟨rfl, rfl⟩ := Prod.mk.inj (Except.ok.inj hpair)
        obtain ⟨rfl, hspace⟩ := eq_of_splitOnce hsplit
        exact ⟨keyLine, rfl, hspace, hnil, parseAuthorizedConnKey_eq_ok_iff.mp hfound⟩
  · rintro ⟨keyLine, rfl, hspace, hne, hkey⟩
    simp [splitOnce_append hspace, hne, parseAuthorizedConnKey_eq_ok_iff.mpr hkey]

section Line

variable {line host : Text} {key key' : Bytes}

/-- The kind of a key is a word. -/
theorem isWhitespace_connAuthorizedKeyKind :
    ∀ c ∈ connAuthorizedKeyKind, isWhitespace c = false := by
  have hall : connAuthorizedKeyKind.all fun c => !isWhitespace c := by decide
  intro c hc
  simpa using List.all_eq_true.mp hall c hc

/-- A key line is two words. -/
theorem IsKeyLine.splitWhitespace (h : IsKeyLine line key) : (splitWhitespace line).length = 2 := by
  obtain ⟨encoded, rfl, hne, hdecode⟩ := h
  rw [splitWhitespace_append (by decide) isWhitespace_connAuthorizedKeyKind (by decide),
    splitWhitespace_word hne fun c hc => isWhitespace_of_decodeBase64 hdecode hc]
  rfl

/-- The line of a host that is a word is three words. -/
theorem IsHostLine.splitWhitespace (h : IsHostLine line host key)
    (hhost : ∀ c ∈ host, isWhitespace c = false) : (splitWhitespace line).length = 3 := by
  obtain ⟨keyLine, rfl, -, hne, hkey⟩ := h
  rw [splitWhitespace_append hne hhost (by decide), List.length_cons, hkey.splitWhitespace]

/-- No line is of both kinds: behind its first space, a key line has no space and the line of a
host has one. -/
theorem IsKeyLine.not_isHostLine (h : IsKeyLine line key) : ¬ IsHostLine line host key' := by
  rintro ⟨keyLine, hline, hspace, -, encoded', rfl, -, -⟩
  obtain ⟨encoded, rfl, -, hdecode⟩ := h
  have hsplit := splitOnce_append (show ' ' ∉ connAuthorizedKeyKind by decide) encoded
  rw [hline, splitOnce_append hspace] at hsplit
  obtain ⟨-, rfl⟩ := Prod.mk.inj (Option.some.inj hsplit)
  have hmem : ' ' ∈ connAuthorizedKeyKind ++ ' ' :: encoded' := by simp
  exact absurd (isWhitespace_of_decodeBase64 hdecode hmem) (by decide)

/-- The tool takes the key of a line of either kind. -/
theorem parsePublicKeyLine_eq_ok (h : parsePublicKeyLine line = .ok key) :
    IsKeyLine line key ∨ ∃ host, IsHostLine line host key := by
  unfold parsePublicKeyLine at h
  split at h
  · exact .inl (parseAuthorizedConnKey_eq_ok_iff.mp h)
  · obtain ⟨⟨host, found⟩, hparse, hfound⟩ := bind_eq_ok.mp h
    obtain rfl := Except.ok.inj hfound
    exact .inr ⟨host, parseKnownHost_eq_ok_iff.mp hparse⟩
  · exact absurd h (bail_ne_ok _ _)

theorem IsKeyLine.parsePublicKeyLine (h : IsKeyLine line key) :
    parsePublicKeyLine line = .ok key := by
  simp only [Axsh.parsePublicKeyLine, h.splitWhitespace]
  exact parseAuthorizedConnKey_eq_ok_iff.mpr h

theorem IsHostLine.parsePublicKeyLine (h : IsHostLine line host key)
    (hhost : ∀ c ∈ host, isWhitespace c = false) : parsePublicKeyLine line = .ok key := by
  simp only [Axsh.parsePublicKeyLine, h.splitWhitespace hhost, parseKnownHost_eq_ok_iff.mpr h,
    ok_bind]

end Line

/-! ## The same key -/

/-- The table has one entry, whose value is the key. -/
def HasOnly {κ : Type} [DecidableEq κ] (table : Table κ Bytes) (name : κ) (key : Bytes) : Prop :=
  table = Function.update Table.empty name (some key)

section Same

variable {C : Crypto} {path : String} {contents host : Text} {key : Bytes}
  {name : Fixed sha256DigestLen}

/-- The authorized-keys loader loads one key from a file of one key line. -/
theorem loadAuthorizedKeys_hasOnly_iff :
    (∃ keys, loadAuthorizedKeys C path none (some (utf8 contents)) = .ok keys ∧
        HasOnly keys name key) ↔
      name = C.sha256 key ∧ ∃ line, relevantLines contents = [line] ∧ IsKeyLine line key := by
  constructor
  · rintro ⟨keys, hload, honly⟩
    obtain ⟨listed, hlisted, hnodup, rfl⟩ := loadAuthorizedKeys_iff_listed.mp hload
    rw [← map_fst_keyEntry] at hnodup
    obtain ⟨found, rfl, hentry⟩ :=
      List.map_eq_singleton_iff.mp (Table.eq_singleton_of_ofList hnodup honly)
    obtain ⟨rfl, rfl⟩ := Prod.mk.inj hentry
    obtain ⟨line, rest, hline, hrest, hlines⟩ := List.forall₂_cons_right_iff.mp hlisted
    obtain rfl := List.forall₂_nil_right_iff.mp hrest
    exact ⟨rfl, line, hlines, hline⟩
  · rintro ⟨rfl, line, hlines, hline⟩
    refine ⟨_, loadAuthorizedKeys_iff_listed.mpr ⟨[key], ?_, List.nodup_singleton _, rfl⟩, rfl⟩
    rw [hlines]
    exact .cons hline .nil

/-- The known-hosts loader loads one key from a file of one host line. -/
theorem loadLines_hasOnly_iff :
    (∃ hosts, loadLines path contents = .ok hosts ∧ HasOnly hosts host key) ↔
      ∃ line, relevantLines contents = [line] ∧ IsHostLine line host key := by
  constructor
  · rintro ⟨hosts, hload, honly⟩
    obtain ⟨entries, hentries, hnodup, rfl⟩ := (loadLines_eq_ok_iff path contents _).mp hload
    obtain rfl := Table.eq_singleton_of_ofList hnodup honly
    obtain ⟨line, rest, hline, hrest, hlines⟩ := List.forall₂_cons_right_iff.mp hentries
    obtain rfl := List.forall₂_nil_right_iff.mp hrest
    exact ⟨line, hlines, parseKnownHost_eq_ok_iff.mp hline⟩
  · rintro ⟨line, hlines, hline⟩
    refine ⟨_, (loadLines_eq_ok_iff path contents _).mpr ⟨[(host, key)], ?_, List.nodup_singleton _,
      rfl⟩, rfl⟩
    rw [hlines]
    exact .cons (parseKnownHost_eq_ok_iff.mpr hline) .nil

/-- A file of one key line is no known-hosts file. -/
theorem loadLines_ne_of_isKeyLine {line : Text} (hlines : relevantLines contents = [line])
    (hline : IsKeyLine line key) (hosts : Hosts) : loadLines path contents ≠ .ok hosts := by
  intro hload
  obtain ⟨entries, hentries, -⟩ := (loadLines_eq_ok_iff path contents hosts).mp hload
  rw [hlines] at hentries
  obtain ⟨entry, _, hentry, -⟩ := List.forall₂_cons_left_iff.mp hentries
  exact hline.not_isHostLine (parseKnownHost_eq_ok_iff.mp hentry)

/-- A file of one host line is no authorized-keys file. -/
theorem loadAuthorizedKeys_ne_of_isHostLine {line : Text} (hlines : relevantLines contents = [line])
    (hline : IsHostLine line host key) (keys : AuthorizedKeys) :
    loadAuthorizedKeys C path none (some (utf8 contents)) ≠ .ok keys := by
  intro hload
  obtain ⟨listed, hlisted, -⟩ := loadAuthorizedKeys_iff_listed.mp hload
  rw [hlines] at hlisted
  obtain ⟨found, _, hfound, -⟩ := List.forall₂_cons_left_iff.mp hlisted
  exact hfound.not_isHostLine hline

end Same

/-- A key that the tool returns is the only key of exactly one of the two files, and the only
key of an authorized-keys file, or of a known-hosts file whose host is a word, is what the tool
returns. -/
theorem load_public_key_agrees (C : Crypto) (path : String) (contents : Text) (key : Bytes) :
    (loadPublicKey path none (some (utf8 contents)) = .ok key →
      ((∃ keys name, loadAuthorizedKeys C path none (some (utf8 contents)) = .ok keys ∧
          HasOnly keys name key) ∧
        ∀ hosts, loadKnownHosts path none (some (utf8 contents)) ≠ .ok hosts) ∨
      ((∃ hosts host, loadKnownHosts path none (some (utf8 contents)) = .ok hosts ∧
          HasOnly hosts host key) ∧
        ∀ keys, loadAuthorizedKeys C path none (some (utf8 contents)) ≠ .ok keys)) ∧
    (∀ keys name, loadAuthorizedKeys C path none (some (utf8 contents)) = .ok keys →
      HasOnly keys name key → loadPublicKey path none (some (utf8 contents)) = .ok key) ∧
    ∀ hosts host, loadKnownHosts path none (some (utf8 contents)) = .ok hosts →
      HasOnly hosts host key → (∀ c ∈ host, isWhitespace c = false) →
      loadPublicKey path none (some (utf8 contents)) = .ok key := by
  simp only [loadKnownHosts_utf8]
  refine ⟨fun h => ?_, fun keys name hload honly => ?_, fun hosts host hload honly hhost => ?_⟩
  · obtain ⟨line, hlines, hparse⟩ := loadPublicKey_eq_ok_iff.mp h
    rcases parsePublicKeyLine_eq_ok hparse with hkey | ⟨host, hhost⟩
    · obtain ⟨keys, hload, honly⟩ := loadAuthorizedKeys_hasOnly_iff.mpr ⟨rfl, line, hlines, hkey⟩
      exact .inl ⟨⟨keys, _, hload, honly⟩, loadLines_ne_of_isKeyLine hlines hkey⟩
    · obtain ⟨hosts, hload, honly⟩ := loadLines_hasOnly_iff.mpr ⟨line, hlines, hhost⟩
      exact .inr ⟨⟨hosts, host, hload, honly⟩, loadAuthorizedKeys_ne_of_isHostLine hlines hhost⟩
  · obtain ⟨-, line, hlines, hline⟩ := loadAuthorizedKeys_hasOnly_iff.mp ⟨keys, hload, honly⟩
    exact loadPublicKey_eq_ok_iff.mpr ⟨line, hlines, hline.parsePublicKeyLine⟩
  · obtain ⟨line, hlines, hline⟩ := loadLines_hasOnly_iff.mp ⟨hosts, hload, honly⟩
    exact loadPublicKey_eq_ok_iff.mpr ⟨line, hlines, hline.parsePublicKeyLine hhost⟩

end Axsh

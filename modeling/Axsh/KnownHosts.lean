/-
# The known-hosts file

Entries of the known-hosts file and of the authorized-keys file, the loader of the
known-hosts file, and the append that records a host. An entry that is appended to
a file the loader accepts is read back, unless the key is empty: the entry of an
empty key ends with the separator of the key, which the loader trims, and the
loader then rejects the whole file.
-/

import Axsh.Base64
import Axsh.Handshake.Sample

set_option autoImplicit false

namespace Axsh

/-! ## Entries -/

/-- `CONN_AUTHORIZED_KEY_KIND`. -/
def connAuthorizedKeyKind : Text := "mldsa-ed25519".toList

/-- `format_authorized_conn_key`. -/
def formatAuthorizedConnKey (publicKey : Bytes) : Text :=
  connAuthorizedKeyKind ++ ' ' :: encodeBase64 publicKey

/-- `parse_authorized_conn_key`. -/
def parseAuthorizedConnKey (line : Text) : Res Bytes :=
  match splitOnce ' ' line with
  | none => bail "missing key type or key data"
  | some (kind, encoded) =>
    if kind ≠ connAuthorizedKeyKind then bail ("unsupported key type " ++ String.ofList kind)
    else if encoded = [] then bail "missing key data"
    else decodeBase64 encoded

/-- `format_known_host`. -/
def formatKnownHost (host : Text) (publicKey : Bytes) : Text :=
  host ++ ' ' :: formatAuthorizedConnKey publicKey

/-- `parse_known_host`. -/
def parseKnownHost (line : Text) : Res (Text × Bytes) :=
  match splitOnce ' ' line with
  | none => bail "missing host or key data"
  | some (host, key) =>
    if host = [] then bail "missing host"
    else do
      let publicKey ← parseAuthorizedConnKey key
      return (host, publicKey)

/-! ## Files -/

/-- An error that the operating system reports for a call on a file, other than
that there is no such file. -/
structure FileFault where
  kind : ErrorKind
  message : String
  kind_ne : kind ≠ .notFound

/-- `std::fs::read` of a file, which may be missing. -/
def fsRead (fault : Option FileFault) (file : Option Bytes) : Res Bytes :=
  match fault, file with
  | some fault, _ => .error (.error fault.kind fault.message)
  | none, none => .error (.error .notFound "No such file or directory (os error 2)")
  | none, some bytes => .ok bytes

/-- `std::fs::read_to_string`. -/
def fsReadToString (fault : Option FileFault) (file : Option Bytes) : Res Text := do
  let bytes ← fsRead fault file
  match fromUtf8? bytes with
  | some contents => .ok contents
  | none => .error (.error .invalidData "stream did not contain valid UTF-8")

/-- `Write::write_all` of several pieces to a file opened for appending. The fault
of a piece says how many of its bytes were written before it. -/
def writeAllPieces : List Bytes → (ℕ → Option (ℕ × FileFault)) → Bytes → Bytes × Res Unit
  | [], _, file => (file, .ok ())
  | piece :: pieces, faults, file =>
    match faults 0 with
    | some (written, fault) =>
      (file ++ piece.take written, .error (.error fault.kind fault.message))
    | none => writeAllPieces pieces (fun i => faults (i + 1)) (file ++ piece)

/-! ## Loading -/

/-- The entries of a known-hosts file, `HashMap<String, Vec<u8>>`. -/
abbrev Hosts := Text → Option Bytes

/-- `HashMap::new`. -/
def Hosts.new : Hosts := fun _ => none

/-- The loop body of `load_known_hosts`, on a line and its index. -/
def loadLine (path : String) (hosts : Hosts) (entry : Text × ℕ) : Res Hosts :=
  let line := trim entry.1
  let place := path ++ ":" ++ toString (entry.2 + 1) ++ ": "
  if line = [] ∨ line.head? = some '#' then .ok hosts
  else
    match parseKnownHost line with
    -- Every error of an entry is reported with its place, as `InvalidData`.
    | .error (.error _ message) => .error (.error .invalidData (place ++ message))
    | .error (.panic message) => .error (.panic message)
    | .ok (host, key) =>
      if (hosts host).isSome then
        .error (.error .invalidData
          (place ++ "duplicate known-host entry for " ++ String.ofList host))
      else .ok (Function.update hosts host (some key))

/-- The loop of `load_known_hosts` over the lines of the file. -/
def loadLines (path : String) (contents : Text) : Res Hosts :=
  (lines contents).zipIdx.foldlM (loadLine path) Hosts.new

/-- `load_known_hosts`; `path` is the file's name as `{path:?}` shows it. -/
def loadKnownHosts (path : String) (fault : Option FileFault) (file : Option Bytes) : Res Hosts :=
  match fsReadToString fault file with
  | .ok contents => loadLines path contents
  -- A missing file is an empty one.
  | .error (.error .notFound _) => .ok Hosts.new
  | .error (.error kind message) =>
    .error (.error kind ("failed to read known_hosts file " ++ path ++ ": " ++ message))
  | .error (.panic message) => .error (.panic message)

/-! ## Appending -/

/-- The first part of `append_known_host`: does the file have an unterminated last
line? -/
def needsNewline (path : String) (fault : Option FileFault) (file : Option Bytes) : Res Bool :=
  match fsRead fault file with
  -- The file is read as bytes here, so it need not be UTF-8.
  | .ok contents => .ok (!contents.isEmpty && contents.getLast? != some 0x0a)
  | .error (.error .notFound _) => .ok false
  | .error (.error kind message) =>
    .error (.error kind ("failed to read known_hosts file " ++ path ++ ": " ++ message))
  | .error (.panic message) => .error (.panic message)

/-- What `append_known_host` writes, one piece for each `write_all`. -/
def appendPieces (needsNewline : Bool) (host : Text) (publicKey : Bytes) : List Bytes :=
  (if needsNewline then [utf8 ['\n']] else []) ++
    [utf8 (formatKnownHost host publicKey), utf8 ['\n']]

/-- The errors the operating system reports to one `append_known_host`. The file is created where
it is opened, and then the error may be that there is no such directory. -/
structure AppendFaults where
  read : Option FileFault
  opening : Option (ErrorKind × String)
  write : ℕ → Option (ℕ × FileFault)

/-- No errors. -/
def AppendFaults.none : AppendFaults where
  read := .none
  opening := .none
  write _ := .none

/-- `append_known_host`: the file after it, and its result. -/
def appendKnownHost (path : String) (host : Text) (publicKey : Bytes) (faults : AppendFaults)
    (file : Option Bytes) : Option Bytes × Res Unit :=
  match needsNewline path faults.read file with
  | .error e => (file, .error e)
  | .ok newline =>
    match faults.opening with
    | some (kind, message) =>
      (file, .error (.error kind ("failed to open known_hosts file " ++ path ++ ": " ++ message)))
    | none =>
      -- The file is there from here on: it is opened with `create(true)`.
      let written :=
        writeAllPieces (appendPieces newline host publicKey) faults.write (file.getD [])
      (some written.1, written.2)

/-! ## Reading an entry back -/

/-- A host that `main` can connect to, and that can stand at the start of a line. -/
structure HostFit (host : Text) : Prop where
  ne_nil : host ≠ []
  isWhitespace_eq : ∀ c ∈ host, isWhitespace c = false
  head_ne : host.head? ≠ some '#'

theorem hostFit_sample : HostFit ['h'] where
  ne_nil := by decide
  isWhitespace_eq := by simp [isWhitespace]
  head_ne := by decide

section Entry

variable {host : Text} {publicKey : Bytes}

/-- A character that is white space is not in a host. -/
theorem HostFit.notMem (h : HostFit host) {c : Char} (hc : isWhitespace c = true) : c ∉ host := by
  intro hmem
  simp [h.isWhitespace_eq c hmem] at hc

theorem notMem_formatAuthorizedConnKey :
    '\n' ∉ formatAuthorizedConnKey publicKey := by
  intro hmem
  rcases List.mem_append.mp hmem with hkind | htail
  · exact absurd hkind (by decide)
  rcases List.mem_cons.mp htail with hsep | hkey
  · exact absurd hsep (by decide)
  · exact absurd (isWhitespace_encodeBase64 hkey) (by decide)

theorem notMem_formatKnownHost (h : HostFit host) : '\n' ∉ formatKnownHost host publicKey := by
  intro hmem
  rcases List.mem_append.mp hmem with hhost | htail
  · exact h.notMem (by decide) hhost
  rcases List.mem_cons.mp htail with hsep | hkey
  · exact absurd hsep (by decide)
  · exact notMem_formatAuthorizedConnKey hkey

theorem formatKnownHost_ne_nil : formatKnownHost host publicKey ≠ [] := by
  simp [formatKnownHost]

/-- An entry begins with its host, so it is neither indented nor a comment. -/
theorem head?_formatKnownHost (h : HostFit host) (rest : Text) :
    ∃ c ∈ host, (host ++ rest).head? = some c ∧ c ≠ '#' := by
  obtain ⟨c, front, rfl⟩ := List.exists_cons_of_ne_nil h.ne_nil
  refine ⟨c, List.mem_cons_self, rfl, fun hc => h.head_ne ?_⟩
  rw [hc]
  rfl

theorem HostFit.isWhitespace_head? (h : HostFit host) (rest : Text) :
    ∀ c ∈ (host ++ rest).head?, isWhitespace c = false := by
  intro c hc
  obtain ⟨d, hd, hhead, -⟩ := head?_formatKnownHost h rest
  obtain rfl : d = c := Option.some.inj (hhead.symm.trans hc)
  exact h.isWhitespace_eq d hd

/-- The loader does not pass over a line that begins with a host. -/
theorem HostFit.not_skipped (h : HostFit host) (rest : Text) :
    ¬ (host ++ rest = [] ∨ (host ++ rest).head? = some '#') := by
  obtain ⟨c, -, hhead, hc⟩ := head?_formatKnownHost h rest
  rintro (hnil | hcomment)
  · exact h.ne_nil (List.append_eq_nil_iff.mp hnil).1
  · exact hc (Option.some.inj (hhead.symm.trans hcomment))

/-- The key part of an entry parses to the key. -/
theorem parseAuthorizedConnKey_format (h : publicKey ≠ []) :
    parseAuthorizedConnKey (formatAuthorizedConnKey publicKey) = .ok publicKey := by
  rw [parseAuthorizedConnKey, formatAuthorizedConnKey, splitOnce_append (by decide)]
  simp [encodeBase64_ne_nil h, decodeBase64_encodeBase64]

/-- An entry parses to its host and key. -/
theorem parseKnownHost_format (h : HostFit host) (hkey : publicKey ≠ []) :
    parseKnownHost (formatKnownHost host publicKey) = .ok (host, publicKey) := by
  rw [parseKnownHost, formatKnownHost, splitOnce_append (h.notMem (by decide))]
  simp [h.ne_nil, parseAuthorizedConnKey_format hkey]

/-- An entry with a key is not changed by trimming. -/
theorem trim_formatKnownHost (h : HostFit host) (hkey : publicKey ≠ []) :
    trim (formatKnownHost host publicKey) = formatKnownHost host publicKey := by
  apply trim_eq_self
  · exact h.isWhitespace_head? _
  · intro c hc
    -- The last character is that of the encoded key.
    have hsplit : formatKnownHost host publicKey =
        (host ++ ' ' :: (connAuthorizedKeyKind ++ [' '])) ++ encodeBase64 publicKey := by
      simp [formatKnownHost, formatAuthorizedConnKey]
    rw [hsplit] at hc
    exact isWhitespace_getLast?_encodeBase64 _ hkey hc

/-- An entry without a key is trimmed to its host and the kind of its key. -/
theorem trim_formatKnownHost_nil (h : HostFit host) :
    trim (formatKnownHost host []) = host ++ ' ' :: connAuthorizedKeyKind := by
  have hsplit : formatKnownHost host [] = (host ++ ' ' :: connAuthorizedKeyKind) ++ [' '] := by
    simp [formatKnownHost, formatAuthorizedConnKey, encodeBase64]
  have hself : trim (host ++ ' ' :: connAuthorizedKeyKind) =
      host ++ ' ' :: connAuthorizedKeyKind := by
    apply trim_eq_self
    · exact h.isWhitespace_head? _
    · intro c hc
      rw [List.getLast?_append_of_ne_nil _ (by simp)] at hc
      obtain rfl : '9' = c := Option.some.inj hc
      decide
  rw [trim] at hself
  rw [hsplit, trim, List.rdropWhile_concat_pos _ _ _ (by decide), hself]

variable {path : String} {hosts : Hosts} {n : ℕ}

/-- The loader adds an entry for a host it has not seen. -/
theorem loadLine_formatKnownHost (h : HostFit host) (hkey : publicKey ≠ []) :
    loadLine path hosts (formatKnownHost host publicKey, n) =
      if (hosts host).isSome then
        .error (.error .invalidData (path ++ ":" ++ toString (n + 1) ++ ": " ++
          "duplicate known-host entry for " ++ String.ofList host))
      else .ok (Function.update hosts host (some publicKey)) := by
  have hskip : ¬ (formatKnownHost host publicKey = [] ∨
      (formatKnownHost host publicKey).head? = some '#') := h.not_skipped _
  simp only [loadLine, trim_formatKnownHost h hkey, if_neg hskip, parseKnownHost_format h hkey]

/-- The loader rejects an entry without a key. -/
theorem loadLine_formatKnownHost_nil (h : HostFit host) :
    loadLine path hosts (formatKnownHost host [], n) =
      .error (.error .invalidData
        (path ++ ":" ++ toString (n + 1) ++ ": " ++ "missing key type or key data")) := by
  have hskip := h.not_skipped (' ' :: connAuthorizedKeyKind)
  -- Without key data the trimmed line ends with the kind, and there is no second space in it.
  have hkind : parseAuthorizedConnKey connAuthorizedKeyKind =
      bail "missing key type or key data" := by
    rw [parseAuthorizedConnKey, splitOnce_of_notMem (by decide)]
  have hparse : parseKnownHost (host ++ ' ' :: connAuthorizedKeyKind) =
      bail "missing key type or key data" := by
    rw [parseKnownHost, splitOnce_append (h.notMem (by decide))]
    simp only [h.ne_nil, if_false, hkind]
    rfl
  simp only [loadLine, trim_formatKnownHost_nil h, if_neg hskip, hparse, bail]

end Entry

/-! ## The loader on a longer file -/

section Load

variable {path : String} {contents line : Text}

/-- The loader treats a line by its trimmed form. -/
theorem loadLine_congr {hosts : Hosts} {first second : Text} (h : trim first = trim second)
    (n : ℕ) : loadLine path hosts (first, n) = loadLine path hosts (second, n) := by
  simp only [loadLine, h]

/-- A newline at the end changes nothing: it ends the last line or adds a blank
one. -/
theorem loadLines_append_newline :
    loadLines path (contents ++ ['\n']) = loadLines path contents := by
  simp only [loadLines, lines, Lines.split_append_self, List.map_append, List.map_cons,
    List.map_nil, if_true, List.append_nil]
  split_ifs with hrest
  · rw [hrest, List.append_nil, List.zipIdx_append, List.foldlM_append]
    exact bind_pure _
  · rw [List.zipIdx_append, List.zipIdx_append, List.foldlM_append, List.foldlM_append]
    congr 1
    funext hosts
    simp [loadLine_congr (trim_stripCr _)]

/-- A line behind a file that ends its last line is loaded last. -/
theorem loadLines_append (hcontents : (Lines.split '\n' contents).2 = []) (hline : '\n' ∉ line)
    (hne : line ≠ []) :
    loadLines path (contents ++ line) =
      loadLines path contents >>= fun hosts =>
        loadLine path hosts (line, (lines contents).length) := by
  rw [loadLines, lines_append hcontents hline hne, List.zipIdx_append, List.foldlM_append,
    loadLines]
  simp

end Load

/-- A file that can be read is loaded line by line. -/
theorem loadKnownHosts_some (path : String) (bytes : Bytes) :
    loadKnownHosts path none (some bytes) =
      match fromUtf8? bytes with
      | some contents => loadLines path contents
      | none => .error (.error .invalidData ("failed to read known_hosts file " ++ path ++ ": " ++
          "stream did not contain valid UTF-8")) := by
  cases h : fromUtf8? bytes with
  | some contents => simp [loadKnownHosts, fsReadToString, fsRead, h]
  | none => simp only [loadKnownHosts, fsReadToString, fsRead, h, ok_bind]

/-- The text of a file that the loader accepts; a missing file counts as empty. -/
theorem exists_contents_of_load {path : String} {file : Option Bytes} {hosts : Hosts}
    (h : loadKnownHosts path none file = .ok hosts) :
    ∃ contents, file.getD [] = utf8 contents ∧ loadLines path contents = .ok hosts := by
  cases file with
  | none => exact ⟨[], rfl, h⟩
  | some bytes =>
    rw [loadKnownHosts_some] at h
    cases hbytes : fromUtf8? bytes with
    | none => simp [hbytes] at h
    | some contents =>
      exact ⟨contents, fromUtf8?_eq_some_iff.mp hbytes, by simpa [hbytes] using h⟩

/-- The loader on the bytes of a text. -/
theorem loadKnownHosts_utf8 (path : String) (contents : Text) :
    loadKnownHosts path none (some (utf8 contents)) = loadLines path contents := by
  simp [loadKnownHosts_some]

/-! ## What an append leaves -/

/-- All pieces are written when the writes report no error. -/
theorem writeAllPieces_of_ok {pieces : List Bytes} {faults : ℕ → Option (ℕ × FileFault)}
    {file : Bytes} (h : (writeAllPieces pieces faults file).2 = .ok ()) :
    (writeAllPieces pieces faults file).1 = file ++ pieces.flatten := by
  induction pieces generalizing faults file with
  | nil => simp [writeAllPieces]
  | cons piece pieces ih =>
    unfold writeAllPieces at h ⊢
    cases hfault : faults 0 with
    | some fault => simp [hfault] at h
    | none =>
      simp only [hfault] at h ⊢
      rw [ih h, List.flatten_cons, List.append_assoc]

theorem writeAllPieces_none (pieces : List Bytes) (file : Bytes) :
    writeAllPieces pieces (fun _ => none) file = (file ++ pieces.flatten, .ok ()) := by
  induction pieces generalizing file with
  | nil => simp [writeAllPieces]
  | cons piece pieces ih => simp [writeAllPieces, ih]

/-- The check succeeds when the operating system reports no error. -/
theorem needsNewline_none (path : String) (file : Option Bytes) :
    needsNewline path none file =
      .ok (!(file.getD []).isEmpty && (file.getD []).getLast? != some 0x0a) := by
  cases file <;> rfl

/-- An append that the operating system reports no errors to writes all its pieces. -/
theorem appendKnownHost_none {path : String} {host : Text} {publicKey : Bytes}
    {file : Option Bytes} {newline : Bool} (hcheck : needsNewline path none file = .ok newline) :
    appendKnownHost path host publicKey .none file =
      (some (file.getD [] ++ (appendPieces newline host publicKey).flatten), .ok ()) := by
  simp only [appendKnownHost, AppendFaults.none, hcheck]
  rw [writeAllPieces_none]

/-- The newline in front of an entry ends the last line of the file. -/
def repaired (contents : Text) : Text :=
  if contents ≠ [] ∧ contents.getLast? ≠ some '\n' then contents ++ ['\n'] else contents

theorem split_repaired (contents : Text) : (Lines.split '\n' (repaired contents)).2 = [] := by
  unfold repaired
  split_ifs with h
  · rw [Lines.split_append_self]
  · rw [Lines.split_snd_eq_nil_iff]
    tauto

theorem loadLines_repaired (path : String) (contents : Text) :
    loadLines path (repaired contents) = loadLines path contents := by
  unfold repaired
  split_ifs with h
  · exact loadLines_append_newline
  · rfl

theorem utf8_ne_nil {contents : Text} (h : contents ≠ []) : utf8 contents ≠ [] := by
  obtain ⟨c, rest, rfl⟩ := List.exists_cons_of_ne_nil h
  simp [utf8]

/-- The check before an append asks for the newline that repairs the file. -/
theorem needsNewline_of_ok {path : String} {fault : Option FileFault} {file : Option Bytes}
    {contents : Text} {newline : Bool} (hfile : file.getD [] = utf8 contents)
    (h : needsNewline path fault file = .ok newline) :
    utf8 contents ++ (if newline then [utf8 ['\n']] else []).flatten =
      utf8 (repaired contents) := by
  rcases fault with - | ⟨kind, message, hne⟩
  · have hnewline : newline = decide (contents ≠ [] ∧ contents.getLast? ≠ some '\n') := by
      cases file with
      | none =>
        have hnil : contents = [] := by_contra fun hne => utf8_ne_nil hne hfile.symm
        simp only [needsNewline, fsRead, Except.ok.injEq] at h
        simp [← h, hnil]
      | some bytes =>
        obtain rfl : bytes = utf8 contents := hfile
        simp only [needsNewline, fsRead, Except.ok.injEq] at h
        rw [← h]
        -- The last byte of a text is a newline exactly when its last character is.
        by_cases hnil : contents = []
        · simp [hnil]
        · have hne := utf8_ne_nil hnil
          by_cases hlast : contents.getLast? = some '\n'
          · simp [hlast, getLast?_utf8_eq_newline_iff.mpr hlast]
          · simp [hnil, hne, hlast, mt getLast?_utf8_eq_newline_iff.mp hlast]
    subst hnewline
    unfold repaired
    split_ifs <;> simp_all
  · -- An error of the operating system ends the append.
    cases kind with
    | notFound => exact absurd rfl hne
    | _ => simp [needsNewline, fsRead] at h

/-- The file that a successful append leaves: the text it found, its last line
ended, and the entry as a line of its own. -/
theorem appendKnownHost_of_ok {path : String} {host : Text} {publicKey : Bytes}
    {faults : AppendFaults} {file : Option Bytes} {contents : Text}
    (hfile : file.getD [] = utf8 contents)
    (h : (appendKnownHost path host publicKey faults file).2 = .ok ()) :
    (appendKnownHost path host publicKey faults file).1 =
      some (utf8 (repaired contents ++ formatKnownHost host publicKey ++ ['\n'])) := by
  unfold appendKnownHost at h ⊢
  -- A successful append has passed the check and the opening.
  match hnewline : needsNewline path faults.read file, hopening : faults.opening with
  | .error e, _ => simp [hnewline] at h
  | .ok newline, some fault => simp [hnewline, hopening] at h
  | .ok newline, none =>
    simp only [hnewline, hopening] at h ⊢
    rw [writeAllPieces_of_ok h, hfile, appendPieces, List.flatten_append, ← List.append_assoc,
      needsNewline_of_ok hfile hnewline]
    simp

/-- Loading the file that a successful append leaves is loading the entry after
the lines that were there. -/
theorem loadKnownHosts_append {path : String} {file : Option Bytes} {hosts : Hosts} {host : Text}
    {publicKey : Bytes} {faults : AppendFaults}
    (hload : loadKnownHosts path none file = .ok hosts) (hhost : HostFit host)
    (happend : (appendKnownHost path host publicKey faults file).2 = .ok ()) :
    ∃ n, loadKnownHosts path none (appendKnownHost path host publicKey faults file).1 =
      loadLine path hosts (formatKnownHost host publicKey, n) := by
  obtain ⟨contents, hfile, hcontents⟩ := exists_contents_of_load hload
  refine ⟨(lines (repaired contents)).length, ?_⟩
  rw [appendKnownHost_of_ok hfile happend, loadKnownHosts_utf8, loadLines_append_newline,
    loadLines_append (split_repaired contents) (notMem_formatKnownHost hhost)
      formatKnownHost_ne_nil, loadLines_repaired, hcontents, ok_bind]

/-- An entry that was appended to a file the loader accepts, for a host the file
does not list, is read back as exactly that entry if and only if its key is not
empty. With an empty key the loader rejects the file. -/
theorem append_read_back_iff (path : String) (file : Option Bytes) (hosts : Hosts) (host : Text)
    (publicKey : Bytes) (faults : AppendFaults) (hload : loadKnownHosts path none file = .ok hosts)
    (hhost : HostFit host) (hnew : hosts host = none)
    (happend : (appendKnownHost path host publicKey faults file).2 = .ok ()) :
    loadKnownHosts path none (appendKnownHost path host publicKey faults file).1 =
      .ok (Function.update hosts host (some publicKey)) ↔ publicKey ≠ [] := by
  obtain ⟨n, hafter⟩ := loadKnownHosts_append hload hhost happend
  rw [hafter]
  constructor
  · rintro h rfl
    rw [loadLine_formatKnownHost_nil hhost] at h
    cases h
  · intro hkey
    rw [loadLine_formatKnownHost hhost hkey, hnew]
    rfl

/-- The append to a file with an unterminated comment. -/
theorem append_read_back_iff_sample :
    loadKnownHosts "known_hosts" none (appendKnownHost "known_hosts" ['h'] [1] .none
        (some (utf8 "# hosts".toList))).1 =
      .ok (Function.update Hosts.new ['h'] (some [1])) := by
  have hload : loadKnownHosts "known_hosts" none (some (utf8 "# hosts".toList)) =
      .ok Hosts.new := by
    rw [loadKnownHosts_utf8]
    rfl
  exact (append_read_back_iff _ _ _ _ _ _ hload hostFit_sample rfl rfl).mpr (by decide)

/-! ## The keys that an append is given -/

/-- A byte string that a client, in some handshake, reads from a `ServerPubkey` and
asks the application about. -/
def Presentable (C : Crypto) (publicKey : Bytes) : Prop :=
  ∃ (cfg : ClientConfig C) (moment : Moment) (wire frame : Bytes) (hello : ServerHello)
    (verdict : Bool),
    .asked hello publicKey verdict ∈ (cfg.onServerPubkey moment wire hello frame).events

/-- The application is asked about every body of a `ServerPubkey` that has the
digest in the hello; nothing has decoded it as a key yet. -/
theorem asked_of_digest {C : Crypto} (cfg : ClientConfig C) (moment : Moment)
    (wire : Bytes) {frame publicKey : Bytes} {hello : ServerHello}
    (hdecode : Hdlc.decode frame = .ok (packetTypeServerPubkey :: publicKey))
    (hdigest : hello.connSignPublicKeySha256 = C.sha256 publicKey) :
    .asked hello publicKey (cfg.acceptServerPubkey hello publicKey).isOk ∈
      (cfg.onServerPubkey moment wire hello frame).events := by
  rw [ClientConfig.onServerPubkey_of_decode hdecode]
  apply List.mem_cons_of_mem
  rw [ClientConfig.onPublicKey, ensure_pos _ hdigest]
  exact List.mem_cons_self

theorem presentable_nil : Presentable Crypto.sample [] := by
  have hdecode : Hdlc.decode (Hdlc.encode [packetTypeServerPubkey]) =
      .ok [packetTypeServerPubkey] := Hdlc.decode_encode (by decide)
  exact ⟨.sample 0 [], ⟨Verifier.acceptAll, 0⟩, [], _,
    ⟨0, Crypto.sample.sha256 [], (PacketSign.sample 0).publicKeyBytes⟩, _,
    asked_of_digest _ _ _ hdecode rfl⟩

/-- A server that presents an empty key gets the known-hosts file of the client
that accepts it rejected. -/
theorem not_append_read_back_of_presentable :
    ¬ ∀ (path : String) (file : Option Bytes) (hosts : Hosts) (host : Text) (publicKey : Bytes)
      (faults : AppendFaults), Presentable Crypto.sample publicKey →
      loadKnownHosts path none file = .ok hosts → HostFit host → hosts host = none →
      (appendKnownHost path host publicKey faults file).2 = .ok () →
      loadKnownHosts path none (appendKnownHost path host publicKey faults file).1 =
        .ok (Function.update hosts host (some publicKey)) := by
  intro hall
  have hload : loadKnownHosts "known_hosts" none none = .ok Hosts.new := rfl
  have happend : (appendKnownHost "known_hosts" ['h'] [] .none none).2 = .ok () := rfl
  have hback := hall _ _ _ _ _ _ presentable_nil hload hostFit_sample rfl happend
  obtain ⟨n, hafter⟩ := loadKnownHosts_append hload hostFit_sample happend
  rw [hafter, loadLine_formatKnownHost_nil hostFit_sample] at hback
  cases hback

end Axsh

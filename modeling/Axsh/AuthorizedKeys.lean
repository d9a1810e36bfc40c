/-
# The authorized-keys file

The loader of the authorized-keys file. It is the loop of the known-hosts file on other lines:
a relevant line lists a key, which is stored under its digest. The table that is loaded is that
of the keys on these lines, in any order.
-/

import Axsh.Base64.Exact
import Axsh.KnownHosts.Loading

set_option autoImplicit false

namespace Axsh

/-- The authorized keys by their digests, `HashMap<[u8; SHA256_DIGEST_LEN], Vec<u8>>`. -/
abbrev AuthorizedKeys := Table (Fixed sha256DigestLen) Bytes

/-- The loop body of `load_authorized_keys`, on a line and its index. -/
def loadAuthorizedLine (C : Crypto) (path : String) (keys : AuthorizedKeys) (entry : Text × ℕ) :
    Res AuthorizedKeys :=
  let line := trim entry.1
  let place := path ++ ":" ++ toString (entry.2 + 1) ++ ": "
  if line = [] ∨ line.head? = some '#' then .ok keys
  else
    match parseAuthorizedConnKey line with
    | .error (.error _ message) => .error (.error .invalidData (place ++ message))
    | .error (.panic message) => .error (.panic message)
    | .ok key =>
      let digest := C.sha256 key
      if (keys digest).isSome then
        .error (.error .invalidData (place ++ "duplicate authorized key digest"))
      else .ok (Function.update keys digest (some key))

/-- `load_authorized_keys`; `path` is the file's name as `{path:?}` shows it. A missing file
is an error here. -/
def loadAuthorizedKeys (C : Crypto) (path : String) (fault : Option FileFault)
    (file : Option Bytes) : Res AuthorizedKeys :=
  match fsReadToString fault file with
  | .ok contents => (lines contents).zipIdx.foldlM (loadAuthorizedLine C path) Table.empty
  | .error (.error kind message) =>
    .error (.error kind ("failed to read authorized_keys file " ++ path ++ ": " ++ message))
  | .error (.panic message) => .error (.panic message)

/-! ## The loader -/

variable {C : Crypto}

/-- A key under its digest. -/
def keyEntry (C : Crypto) (key : Bytes) : Fixed sha256DigestLen × Bytes := (C.sha256 key, key)

theorem map_fst_keyEntry (keys : List Bytes) :
    (keys.map (keyEntry C)).map Prod.fst = keys.map C.sha256 := by
  rw [List.map_map]
  rfl

theorem lineLoop_loadAuthorizedLine (path : String) :
    LineLoop parseAuthorizedConnKey (keyEntry C) (loadAuthorizedLine C path) where
  skip keys entry hskip :=
    if_pos (not_not.mp (relevant_iff.not.mp (Bool.eq_false_iff.mp hskip)))
  error keys entry e hrelevant hparse := by
    simp only [loadAuthorizedLine, if_neg (relevant_iff.mp hrelevant), hparse]
    cases e with
    | error kind message => exact ⟨_, rfl⟩
    | panic message => exact ⟨_, rfl⟩
  fresh keys entry key hrelevant hparse hnew := by
    rw [keyEntry] at hnew
    simp only [loadAuthorizedLine, if_neg (relevant_iff.mp hrelevant), hparse, hnew]
    rfl
  duplicate keys entry key hrelevant hparse hdup := by
    rw [keyEntry] at hdup
    simp only [loadAuthorizedLine, if_neg (relevant_iff.mp hrelevant), hparse, hdup]
    exact ⟨_, rfl⟩

/-- The loader of the authorized-keys file returns the keys that the relevant lines parse to,
if no digest comes twice. -/
theorem loadAuthorizedKeys_eq_ok_iff (path : String) (contents : Text) (keys : AuthorizedKeys) :
    loadAuthorizedKeys C path none (some (utf8 contents)) = .ok keys ↔ ∃ listed,
      List.Forall₂ (fun line key => parseAuthorizedConnKey line = .ok key) (relevantLines contents)
        listed ∧ (listed.map C.sha256).Nodup ∧ keys = Table.ofList (listed.map (keyEntry C)) := by
  have hread : loadAuthorizedKeys C path none (some (utf8 contents)) =
      (lines contents).zipIdx.foldlM (loadAuthorizedLine C path) Table.empty := by
    simp [loadAuthorizedKeys, fsReadToString, fsRead]
  have hloop := (lineLoop_loadAuthorizedLine (C := C) path).eq_ok_iff contents keys
  simp only [map_fst_keyEntry] at hloop
  rw [hread, hloop]

/-! ## The lines of keys -/

/-- A line that lists a key: the kind of the key, one space, and its base64. -/
def IsKeyLine (line : Text) (key : Bytes) : Prop :=
  ∃ encoded, line = connAuthorizedKeyKind ++ ' ' :: encoded ∧ encoded ≠ [] ∧
    decodeBase64 encoded = .ok key

theorem parseAuthorizedConnKey_eq_ok_iff {line : Text} {key : Bytes} :
    parseAuthorizedConnKey line = .ok key ↔ IsKeyLine line key := by
  unfold parseAuthorizedConnKey
  constructor
  · intro h
    cases hsplit : splitOnce ' ' line with
    | none =>
      rw [hsplit] at h
      cases h
    | some parts =>
      obtain ⟨kind, encoded⟩ := parts
      simp only [hsplit] at h
      split_ifs at h with hkind hnil
      · cases h
      · cases h
      · obtain ⟨rfl, -⟩ := eq_of_splitOnce hsplit
        obtain rfl := not_not.mp hkind
        exact ⟨encoded, rfl, hnil, h⟩
  · rintro ⟨encoded, rfl, hne, hdecode⟩
    simp [splitOnce_append (show ' ' ∉ connAuthorizedKeyKind by decide), hne, hdecode]

theorem isKeyLine_format {key : Bytes} (h : key ≠ []) :
    IsKeyLine (formatAuthorizedConnKey key) key :=
  ⟨_, rfl, encodeBase64_ne_nil h, decodeBase64_encodeBase64 key⟩

/-- The line of a key is not changed by trimming. -/
theorem trim_formatAuthorizedConnKey {key : Bytes} (h : key ≠ []) :
    trim (formatAuthorizedConnKey key) = formatAuthorizedConnKey key := by
  apply trim_eq_self
  · intro c hc
    obtain rfl : 'm' = c := Option.some.inj hc
    decide
  · intro c hc
    -- The last character is that of the encoded key.
    have hsplit : formatAuthorizedConnKey key =
        (connAuthorizedKeyKind ++ [' ']) ++ encodeBase64 key := by
      rw [formatAuthorizedConnKey, List.append_assoc, List.singleton_append]
    rw [hsplit] at hc
    exact isWhitespace_getLast?_encodeBase64 _ h hc

/-- The relevant lines of a file of key lines are the lines. -/
theorem relevantLines_format {keys : List Bytes} (hkeys : ∀ key ∈ keys, key ≠ []) :
    relevantLines (Lines.join '\n' (keys.map formatAuthorizedConnKey)) =
      keys.map formatAuthorizedConnKey := by
  have hclean : Lines.Clean '\n' (keys.map formatAuthorizedConnKey) := by
    intro line hline
    obtain ⟨key, -, rfl⟩ := List.mem_map.mp hline
    exact notMem_formatAuthorizedConnKey
  have hsplit := Lines.split_join hclean (List.not_mem_nil : '\n' ∉ [])
  rw [List.append_nil] at hsplit
  have htrim : (lines (Lines.join '\n' (keys.map formatAuthorizedConnKey))).map trim =
      keys.map formatAuthorizedConnKey := by
    simp only [lines, hsplit, if_true, List.append_nil, List.map_map]
    apply List.map_congr_left
    intro key hkey
    exact (trim_stripCr _).trans (trim_formatAuthorizedConnKey (hkeys key hkey))
  rw [relevantLines, htrim, List.filter_eq_self]
  intro line hline
  obtain ⟨key, -, rfl⟩ := List.mem_map.mp hline
  rw [relevant_iff]
  rintro (hnil | hcomment)
  · cases hnil
  · exact absurd (Option.some.inj hcomment : 'm' = '#') (by decide)

theorem IsKeyLine.unique {line : Text} {key key' : Bytes} (h : IsKeyLine line key)
    (h' : IsKeyLine line key') : key = key' := by
  have hparse := parseAuthorizedConnKey_eq_ok_iff.mpr h
  exact Except.ok.inj (hparse.symm.trans (parseAuthorizedConnKey_eq_ok_iff.mpr h'))

/-- The keys that are listed are those of the lines. -/
theorem mem_listed_iff {lines : List Text} {listed : List Bytes}
    (h : List.Forall₂ IsKeyLine lines listed) {key : Bytes} :
    key ∈ listed ↔ ∃ line ∈ lines, IsKeyLine line key := by
  constructor
  · exact fun hkey => Table.exists_of_forall₂ h hkey
  · rintro ⟨line, hline, hkey⟩
    obtain ⟨found, hfound, hlisted⟩ := Table.exists_of_forall₂ h.flip hline
    rwa [hkey.unique hlisted]

section Loading

variable {path : String} {contents contents' : Text} {keys : AuthorizedKeys}

/-- The loader on a text, by its key lines. -/
theorem loadAuthorizedKeys_iff_listed :
    loadAuthorizedKeys C path none (some (utf8 contents)) = .ok keys ↔ ∃ listed,
      List.Forall₂ IsKeyLine (relevantLines contents) listed ∧ (listed.map C.sha256).Nodup ∧
        keys = Table.ofList (listed.map (keyEntry C)) := by
  simp only [loadAuthorizedKeys_eq_ok_iff, parseAuthorizedConnKey_eq_ok_iff]

/-- What the table of listed keys has under a digest is the key with that digest. -/
theorem ofList_listed_eq_some_iff {listed : List Bytes} (hkeys : (listed.map C.sha256).Nodup)
    {digest : Fixed sha256DigestLen} {key : Bytes} :
    Table.ofList (listed.map (keyEntry C)) digest = some key ↔
      key ∈ listed ∧ digest = C.sha256 key := by
  rw [← map_fst_keyEntry] at hkeys
  rw [Table.ofList_eq_some_iff hkeys, List.mem_map]
  constructor
  · rintro ⟨key, hkey, hentry⟩
    obtain ⟨rfl, rfl⟩ := Prod.mk.inj hentry
    exact ⟨hkey, rfl⟩
  · rintro ⟨hkey, rfl⟩
    exact ⟨key, hkey, rfl⟩

/-- Files with the same relevant lines, in any order, are loaded alike. -/
theorem loadAuthorizedKeys_perm (h : (relevantLines contents).Perm (relevantLines contents'))
    (hload : loadAuthorizedKeys C path none (some (utf8 contents)) = .ok keys) :
    loadAuthorizedKeys C path none (some (utf8 contents')) = .ok keys := by
  obtain ⟨listed, hlisted, hkeys, rfl⟩ := loadAuthorizedKeys_iff_listed.mp hload
  obtain ⟨listed', hlisted', hperm⟩ := List.perm_comp_forall₂ h.symm hlisted
  have hkeys' : (listed'.map C.sha256).Nodup := (hperm.map C.sha256).nodup_iff.mpr hkeys
  refine loadAuthorizedKeys_iff_listed.mpr ⟨listed', hlisted', hkeys', ?_⟩
  exact Table.ofList_perm (map_fst_keyEntry listed ▸ hkeys) (hperm.symm.map (keyEntry C))

end Loading

/-- A file loads exactly if every relevant line lists a key and no two keys have one digest;
then the table has the listed keys under their digests, in whatever order and between whatever
other lines they stand. The lines of any keys with different digests load as these keys. -/
theorem load_authorized_keys_exact (C : Crypto) (path : String) :
    (∀ contents,
      ((∃ keys, loadAuthorizedKeys C path none (some (utf8 contents)) = .ok keys) ↔
        ∃ listed, List.Forall₂ IsKeyLine (relevantLines contents) listed ∧
          (listed.map C.sha256).Nodup) ∧
      (∀ keys, loadAuthorizedKeys C path none (some (utf8 contents)) = .ok keys →
        ∀ digest key, keys digest = some key ↔
          digest = C.sha256 key ∧ ∃ line ∈ relevantLines contents, IsKeyLine line key) ∧
      ∀ contents', (relevantLines contents).Perm (relevantLines contents') → ∀ keys,
        loadAuthorizedKeys C path none (some (utf8 contents)) = .ok keys ↔
          loadAuthorizedKeys C path none (some (utf8 contents')) = .ok keys) ∧
    ∀ listed : List Bytes, (∀ key ∈ listed, key ≠ []) → (listed.map C.sha256).Nodup →
      ∃ keys, loadAuthorizedKeys C path none
          (some (utf8 (Lines.join '\n' (listed.map formatAuthorizedConnKey)))) = .ok keys ∧
        ∀ digest key, keys digest = some key ↔ key ∈ listed ∧ digest = C.sha256 key := by
  refine ⟨fun contents => ⟨⟨?_, ?_⟩, ?_, ?_⟩, ?_⟩
  · rintro ⟨keys, hload⟩
    obtain ⟨listed, hlisted, hkeys, -⟩ := loadAuthorizedKeys_iff_listed.mp hload
    exact ⟨listed, hlisted, hkeys⟩
  · rintro ⟨listed, hlisted, hkeys⟩
    exact ⟨_, loadAuthorizedKeys_iff_listed.mpr ⟨listed, hlisted, hkeys, rfl⟩⟩
  · intro keys hload digest key
    obtain ⟨listed, hlisted, hkeys, rfl⟩ := loadAuthorizedKeys_iff_listed.mp hload
    rw [ofList_listed_eq_some_iff hkeys, mem_listed_iff hlisted, and_comm]
  · intro contents' hperm keys
    exact ⟨loadAuthorizedKeys_perm hperm, loadAuthorizedKeys_perm hperm.symm⟩
  · intro listed hne hkeys
    refine ⟨_, loadAuthorizedKeys_iff_listed.mpr ⟨listed, ?_, hkeys, rfl⟩, fun digest key =>
      ofList_listed_eq_some_iff hkeys⟩
    rw [relevantLines_format hne, List.forall₂_map_left_iff, List.forall₂_same]
    exact fun key hkey => isKeyLine_format (hne key hkey)

end Axsh

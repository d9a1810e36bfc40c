/-
# An append that is cut short

The operating system may end an append at any byte: with an error, after which `axsh` gives up,
or by ending `axsh` itself. What is then in the file is what was there and a front of what was to
be appended. The next `load_known_hosts` may refuse such a file. If it does not, it has all the
entries that were there, and at most one more: for the host of the append, with a key that begins
the key of the append.

The key may be shorter than the one the user has confirmed: base64 that is cut at a multiple of
four characters is base64.
-/

import Axsh.Fingerprint
import Axsh.Text.Lossy

set_option autoImplicit false

namespace Axsh

/-! ## Fronts of a text -/

/-- The bytes of a character do not begin those of another one. -/
theorem eq_of_utf8EncodeChar {c d : Char} {first second : Bytes}
    (h : String.utf8EncodeChar c ++ first = String.utf8EncodeChar d ++ second) : c = d := by
  obtain ⟨byte, rest, hc, hadmits, -⟩ := utf8EncodeChar_eq c
  obtain ⟨byte', rest', hd, hadmits', -⟩ := utf8EncodeChar_eq d
  have hcons : byte :: (rest ++ first) = byte' :: (rest' ++ second) := by
    rw [← List.cons_append, ← List.cons_append, ← hc, ← hd, h]
  obtain ⟨rfl, hrest⟩ := List.cons.inj hcons
  -- The first byte says how many follow it.
  obtain ⟨rfl, -⟩ := List.append_inj hrest (hadmits.length_eq.symm.trans hadmits'.length_eq)
  have hutf8 : utf8 [c] = utf8 [d] := by simp [utf8, hc, hd]
  exact List.singleton_inj.mp (utf8_injective hutf8)

/-- Text whose bytes begin the bytes of a text begins the text. -/
theorem isPrefix_of_utf8 {front text : Text} (h : utf8 front <+: utf8 text) : front <+: text := by
  induction front generalizing text with
  | nil => exact List.nil_prefix
  | cons c front ih =>
    obtain ⟨rest, hrest⟩ := h
    rw [utf8, List.flatMap_cons, List.append_assoc] at hrest
    cases text with
    | nil =>
      obtain ⟨first, more, hc, -, -⟩ := utf8EncodeChar_eq c
      rw [hc] at hrest
      cases hrest
    | cons d text =>
      have htext : utf8 (d :: text) = String.utf8EncodeChar d ++ utf8 text := List.flatMap_cons ..
      rw [htext] at hrest
      obtain rfl := eq_of_utf8EncodeChar hrest
      have hback : utf8 front <+: utf8 text := ⟨rest, List.append_cancel_left hrest⟩
      exact List.cons_prefix_cons.mpr ⟨rfl, ih hback⟩

/-- What is left of a text that begins with a visible character, once it is trimmed, begins it. -/
theorem trim_isPrefix {text : Text} (h : ∀ c ∈ text.head?, isWhitespace c = false) :
    trim text <+: text := by
  have hfront : text.rdropWhile isWhitespace <+: text := List.rdropWhile_prefix ..
  have hleft : trim text = text.rdropWhile isWhitespace := by
    rw [trim]
    cases hcut : text.rdropWhile isWhitespace with
    | nil => rfl
    | cons c rest =>
      rw [hcut] at hfront
      obtain ⟨cut, rfl⟩ := hfront
      have hvisible : isWhitespace c = false := h c rfl
      exact List.dropWhile_cons_of_neg (by simp [hvisible])
  rw [hleft]
  exact hfront

/-- Two texts that are cut at their first separators: if one begins the other, then the parts in
front of the separators agree. -/
theorem isPrefix_of_sep {sep : Char} {first second front back : Text} (hfirst : sep ∉ first)
    (hsecond : sep ∉ second) (h : first ++ sep :: front <+: second ++ sep :: back) :
    first = second ∧ front <+: back := by
  obtain ⟨rest, hrest⟩ := h
  rw [List.append_assoc, List.cons_append] at hrest
  have hsplit := splitOnce_append hfirst (front ++ rest)
  rw [hrest, splitOnce_append hsecond] at hsplit
  obtain ⟨rfl, rfl⟩ := Prod.mk.inj (Option.some.inj hsplit)
  exact ⟨rfl, List.prefix_append ..⟩

/-! ## Base64 that is cut short -/

/-- The decoder takes four bytes at a time, so what it makes of a front begins what it makes of
the whole. -/
theorem decodeBase64Chunks_isPrefix {front back data key : Bytes}
    (hfront : decodeBase64Chunks front = .ok data)
    (hall : decodeBase64Chunks (front ++ back) = .ok key) : data <+: key := by
  induction front using decodeBase64Chunks.induct generalizing data key with
  | case1 =>
    obtain rfl := Except.ok.inj hfront
    exact List.nil_prefix
  | case2 c0 c1 c2 c3 rest ih =>
    simp only [List.cons_append] at hall
    obtain ⟨a, b, ha, hb, hcases⟩ := decodeBase64Chunks_eq_ok hfront
    obtain ⟨a', b', ha', hb', hcases'⟩ := decodeBase64Chunks_eq_ok hall
    obtain rfl := Except.ok.inj (ha.symm.trans ha')
    obtain rfl := Except.ok.inj (hb.symm.trans hb')
    have hletter {byte n : UInt8} (h : decodeChar byte = .ok n) : byte ≠ 0x3d := by
      obtain ⟨c, hc⟩ := exists_letter_of_decodeChar h
      exact hc.byte_ne_padding
    -- A padding that ends the front ends the whole too.
    rcases hcases with ⟨-, -, -, rfl⟩ | ⟨c, hc, -, -, rfl⟩ | ⟨c, d, more, hc, hd, hmore, rfl⟩
    · rcases hcases' with ⟨-, -, -, rfl⟩ | ⟨c', -, -, -, rfl⟩ | ⟨c', d', more', -, -, -, rfl⟩
      all_goals simp
    · rcases hcases' with ⟨hpad, -⟩ | ⟨c', hc', -, -, rfl⟩ | ⟨c', d', more', hc', -, -, rfl⟩
      · exact absurd hpad (hletter hc)
      all_goals
        obtain rfl := Except.ok.inj (hc.symm.trans hc')
        simp
    · rcases hcases' with ⟨hpad, -⟩ | ⟨c', -, hpad, -⟩ | ⟨c', d', more', hc', hd', hmore', rfl⟩
      · exact absurd hpad (hletter hc)
      · exact absurd hpad (hletter hd)
      · obtain rfl := Except.ok.inj (hc.symm.trans hc')
        obtain rfl := Except.ok.inj (hd.symm.trans hd')
        have hrest : more <+: more' := ih hmore hmore'
        simpa using hrest
  | case3 front hnil hfour =>
    rw [decodeBase64Chunks.eq_3 front hnil hfour] at hfront
    cases hfront

/-- What the decoder makes of the front of an encoding begins what was encoded. -/
theorem decodeBase64_isPrefix {encoded : Text} {key data : Bytes}
    (h : encoded <+: encodeBase64 key) (hdecode : decodeBase64 encoded = .ok data) :
    data <+: key := by
  obtain ⟨rest, hrest⟩ := h
  have hall := decodeBase64Chunks_encodeBase64 key
  rw [← hrest, utf8_append] at hall
  exact decodeBase64Chunks_isPrefix (decodeBase64Chunks_of_decodeBase64 hdecode) hall

theorem ne_nil_of_decodeBase64 {encoded : Text} {data : Bytes} (hne : encoded ≠ [])
    (h : decodeBase64 encoded = .ok data) : data ≠ [] := by
  have hchunks := decodeBase64Chunks_of_decodeBase64 h
  rcases hbytes : utf8 encoded with - | ⟨c0, - | ⟨c1, - | ⟨c2, - | ⟨c3, rest⟩⟩⟩⟩
  · exact absurd hbytes (utf8_ne_nil hne)
  all_goals rw [hbytes] at hchunks
  iterate 3 cases hchunks
  obtain ⟨a, b, -, -, ⟨-, -, -, rfl⟩ | ⟨c, -, -, -, rfl⟩ | ⟨c, d, more, -, -, -, rfl⟩⟩ :=
    decodeBase64Chunks_eq_ok hchunks
  all_goals exact List.cons_ne_nil _ _

/-! ## An entry that is cut short -/

section Entry

variable {path : String} {hosts hosts' : Hosts} {host line : Text} {publicKey : Bytes} {n : ℕ}

/-- The front of an entry, if it is one, is for the same host, and its key begins the key. -/
theorem IsHostLine.of_isPrefix {name : Text} {key : Bytes} (hhost : ' ' ∉ host)
    (hline : line <+: formatKnownHost host publicKey) (h : IsHostLine line name key) :
    name = host ∧ key ≠ [] ∧ key <+: publicKey := by
  obtain ⟨keyLine, rfl, hname, -, encoded, rfl, hne, hdecode⟩ := h
  obtain ⟨rfl, hkeyLine⟩ := isPrefix_of_sep hname hhost hline
  obtain ⟨-, hencoded⟩ := isPrefix_of_sep (by decide) (by decide) hkeyLine
  exact ⟨rfl, ne_nil_of_decodeBase64 hne hdecode, decodeBase64_isPrefix hencoded hdecode⟩

/-- The front of an entry is trimmed at its end only. -/
theorem trim_isPrefix_formatKnownHost (hhost : HostFit host)
    (hline : line <+: formatKnownHost host publicKey) :
    trim line <+: formatKnownHost host publicKey := by
  refine (trim_isPrefix ?_).trans hline
  intro c hc
  obtain ⟨rest, hrest⟩ := hline
  refine hhost.isWhitespace_head? (' ' :: formatAuthorizedConnKey publicKey) c ?_
  change c ∈ (formatKnownHost host publicKey).head?
  rw [← hrest, List.head?_append, Option.mem_def.mp hc]
  rfl

/-- The loader passes over the front of an entry, refuses it, or adds an entry for its host. -/
theorem loadLine_of_isPrefix (hhost : HostFit host)
    (hline : line <+: formatKnownHost host publicKey)
    (hload : loadLine path hosts (line, n) = .ok hosts') :
    hosts' = hosts ∨ hosts host = none ∧ ∃ key, key ≠ [] ∧ key <+: publicKey ∧
      hosts' = Function.update hosts host (some key) := by
  have hloop := lineLoop_loadLine path
  by_cases hrelevant : relevant (trim (line, n).1) = true
  · obtain ⟨⟨name, key⟩, ⟨found, hparse, rfl⟩, hnew, rfl⟩ :=
      (hloop.step_eq_ok_iff hrelevant hosts hosts').mp hload
    obtain ⟨rfl, hne, hkey⟩ := (parseKnownHost_eq_ok_iff.mp hparse).of_isPrefix
      (hhost.notMem (by decide)) (trim_isPrefix_formatKnownHost hhost hline)
    exact .inr ⟨hnew, key, hne, hkey, rfl⟩
  · have hskip := hloop.skip hosts (line, n) (Bool.eq_false_iff.mpr hrelevant)
    exact .inl (Except.ok.inj (hload.symm.trans hskip))

end Entry

/-! ## The file -/

section File

variable {path : String} {file : Option Bytes} {hosts hosts' : Hosts} {host contents tail : Text}
  {publicKey : Bytes} {faults : AppendFaults}

/-- Whatever errors the operating system reports, the pieces are written from the front on. -/
theorem writeAllPieces_isPrefix (pieces : List Bytes) (faults : ℕ → Option (ℕ × FileFault))
    (file : Bytes) : ∃ written, written <+: pieces.flatten ∧
      (writeAllPieces pieces faults file).1 = file ++ written := by
  induction pieces generalizing faults file with
  | nil => exact ⟨[], List.prefix_refl [], (List.append_nil file).symm⟩
  | cons piece pieces ih =>
    unfold writeAllPieces
    cases faults 0 with
    | some fault =>
      obtain ⟨count, fault⟩ := fault
      exact ⟨piece.take count, (List.take_prefix ..).trans (List.prefix_append ..), rfl⟩
    | none =>
      obtain ⟨written, hwritten, hfile⟩ := ih (fun i => faults (i + 1)) (file ++ piece)
      refine ⟨piece ++ written, ?_, by rw [hfile, List.append_assoc]⟩
      rw [List.flatten_cons]
      exact (List.prefix_append_right_inj piece).mpr hwritten

/-- What is appended, as a text. -/
theorem flatten_appendPieces (newline : Bool) :
    (appendPieces newline host publicKey).flatten =
      utf8 ((if newline then ['\n'] else []) ++ (formatKnownHost host publicKey ++ ['\n'])) := by
  rw [utf8_append, utf8_append]
  cases newline <;> simp [appendPieces]

/-- An append leaves the file as it is, or with a front of what it appends to it. -/
theorem appendKnownHost_isPrefix (path : String) (host : Text) (publicKey : Bytes)
    (faults : AppendFaults) (file : Option Bytes) :
    (appendKnownHost path host publicKey faults file).1 = file ∨
      ∃ newline written, needsNewline path faults.read file = .ok newline ∧
        written <+: (appendPieces newline host publicKey).flatten ∧
        (appendKnownHost path host publicKey faults file).1 = some (file.getD [] ++ written) := by
  unfold appendKnownHost
  cases hcheck : needsNewline path faults.read file with
  | error e => exact .inl rfl
  | ok newline =>
    cases faults.opening with
    | some fault => exact .inl rfl
    | none =>
      obtain ⟨written, hwritten, hfile⟩ :=
        writeAllPieces_isPrefix (appendPieces newline host publicKey) faults.write (file.getD [])
      exact .inr ⟨newline, written, rfl, hwritten, congrArg some hfile⟩

/-- A front of an entry line, behind a file that ends its last line. -/
theorem loadLines_append_isPrefix (hhost : HostFit host)
    (hload : loadLines path contents = .ok hosts) (hends : (Lines.split '\n' contents).2 = [])
    (htail : tail <+: formatKnownHost host publicKey ++ ['\n'])
    (hafter : loadLines path (contents ++ tail) = .ok hosts') :
    hosts' = hosts ∨ hosts host = none ∧ ∃ key, key ≠ [] ∧ key <+: publicKey ∧
      hosts' = Function.update hosts host (some key) := by
  -- The newline that ends the entry changes nothing.
  wlog hline : tail <+: formatKnownHost host publicKey generalizing tail with hcut
  · obtain rfl := (List.prefix_concat_iff.mp htail).resolve_right hline
    rw [← List.append_assoc, loadLines_append_newline] at hafter
    exact hcut (List.prefix_append ..) hafter (List.prefix_refl _)
  by_cases hnil : tail = []
  · rw [hnil, List.append_nil, hload] at hafter
    exact .inl (Except.ok.inj hafter).symm
  · have hnewline : '\n' ∉ tail := fun hmem => notMem_formatKnownHost hhost (hline.subset hmem)
    rw [loadLines_append hends hnewline hnil, hload, ok_bind] at hafter
    exact loadLine_of_isPrefix hhost hline hafter

/-- What the loader has behind an append, however that ended: the entries that it had before, and
at most one more. -/
theorem loadKnownHosts_written (hload : loadKnownHosts path none file = .ok hosts)
    (hhost : HostFit host)
    (hafter : loadKnownHosts path none (appendKnownHost path host publicKey faults file).1 =
      .ok hosts') :
    hosts' = hosts ∨ hosts host = none ∧ ∃ key, key ≠ [] ∧ key <+: publicKey ∧
      hosts' = Function.update hosts host (some key) := by
  rcases appendKnownHost_isPrefix path host publicKey faults file with
    hsame | ⟨newline, written, hcheck, hwritten, hfile⟩
  · rw [hsame, hload] at hafter
    exact .inl (Except.ok.inj hafter).symm
  obtain ⟨contents, hbytes, hcontents⟩ := exists_contents_of_load hload
  obtain ⟨after, hafterBytes, hafterLoad⟩ := exists_contents_of_load hafter
  rw [hfile, Option.getD_some, hbytes] at hafterBytes
  -- The new text is the old one and a front of the text that is appended.
  obtain ⟨tail, rfl⟩ : contents <+: after := isPrefix_of_utf8 ⟨written, hafterBytes⟩
  rw [utf8_append] at hafterBytes
  obtain rfl := List.append_cancel_left hafterBytes
  rw [flatten_appendPieces] at hwritten
  have htail := isPrefix_of_utf8 hwritten
  have hrepaired : contents ++ (if newline then ['\n'] else []) = repaired contents := by
    apply utf8_injective
    rw [← needsNewline_of_ok hbytes hcheck, utf8_append]
    cases newline <;> simp
  rcases List.prefix_or_prefix_of_prefix htail (List.prefix_append ..) with hlead | ⟨line, rfl⟩
  · -- Nothing of the entry is there.
    have hsame : loadLines path (contents ++ tail) = loadLines path contents := by
      have hnewline : tail <+: [] ++ ['\n'] := hlead.trans (by cases newline <;> simp)
      rcases List.prefix_concat_iff.mp hnewline with rfl | hnil
      · exact loadLines_append_newline
      · rw [List.prefix_nil.mp hnil, List.append_nil]
    rw [hsame, hcontents] at hafterLoad
    exact .inl (Except.ok.inj hafterLoad).symm
  · have hline := (List.prefix_append_right_inj _).mp htail
    rw [← List.append_assoc, hrepaired] at hafterLoad
    exact loadLines_append_isPrefix hhost ((loadLines_repaired path contents).trans hcontents)
      (split_repaired contents) hline hafterLoad

/-- Behind an append that succeeded there is one more entry, with the whole key. -/
theorem loadKnownHosts_appended (hload : loadKnownHosts path none file = .ok hosts)
    (hhost : HostFit host)
    (hafter : loadKnownHosts path none (appendKnownHost path host publicKey faults file).1 =
      .ok hosts') (happend : (appendKnownHost path host publicKey faults file).2 = .ok ()) :
    hosts host = none ∧ hosts' = Function.update hosts host (some publicKey) := by
  obtain ⟨n, hline⟩ := loadKnownHosts_append hload hhost happend
  rw [hafter] at hline
  by_cases hkey : publicKey = []
  · rw [hkey, loadLine_formatKnownHost_nil hhost] at hline
    cases hline
  rw [loadLine_formatKnownHost hhost hkey] at hline
  cases hnew : hosts host with
  | some key => simp [hnew] at hline
  | none => exact ⟨rfl, by simpa [hnew] using hline⟩

end File

/-- Whatever errors end an append, and at whatever byte: a file that the loader accepts before
and after it has all its entries after it, each with its key, and at most one more. That one is
for the host of the append, which was not listed, and its key is not empty and begins the key of
the append; behind an append that succeeded it is that key. -/
theorem torn_append (path : String) (file : Option Bytes) (hosts hosts' : Hosts) (host : Text)
    (publicKey : Bytes) (faults : AppendFaults) (hload : loadKnownHosts path none file = .ok hosts)
    (hhost : HostFit host)
    (hafter : loadKnownHosts path none (appendKnownHost path host publicKey faults file).1 =
      .ok hosts') :
    (hosts' = hosts ∨ hosts host = none ∧ ∃ key, key ≠ [] ∧ key <+: publicKey ∧
      hosts' = Function.update hosts host (some key)) ∧
    ((appendKnownHost path host publicKey faults file).2 = .ok () →
      hosts host = none ∧ hosts' = Function.update hosts host (some publicKey)) :=
  ⟨loadKnownHosts_written hload hhost hafter, loadKnownHosts_appended hload hhost hafter⟩

/-- An append to a missing file, on a disk that is full behind four characters of base64. -/
def fullDisk : AppendFaults where
  read := none
  opening := none
  write i := if i = 0 then some (20, ⟨.foreign "StorageFull", "no space left", by decide⟩) else none

theorem appendKnownHost_fullDisk :
    (appendKnownHost "known_hosts" ['h'] [1, 2, 3, 4] fullDisk none).1 =
      some (utf8 (formatKnownHost ['h'] [1, 2, 3])) := by decide

/-- The loader takes the three bytes of the key that were written for all of it. -/
theorem torn_append_fullDisk :
    loadKnownHosts "known_hosts" none
        (appendKnownHost "known_hosts" ['h'] [1, 2, 3, 4] fullDisk none).1 =
      .ok (Function.update Hosts.new ['h'] (some [1, 2, 3])) ∧
    (appendKnownHost "known_hosts" ['h'] [1, 2, 3, 4] fullDisk none).2 ≠ .ok () := by
  have hline : loadLines "known_hosts" ([] ++ formatKnownHost ['h'] [1, 2, 3]) = _ :=
    loadLines_append rfl (notMem_formatKnownHost hostFit_sample) formatKnownHost_ne_nil
  have hempty : loadLines "known_hosts" [] = .ok Hosts.new := rfl
  rw [hempty, ok_bind, loadLine_formatKnownHost hostFit_sample (by decide)] at hline
  have hload : loadKnownHosts "known_hosts" none
      (appendKnownHost "known_hosts" ['h'] [1, 2, 3, 4] fullDisk none).1 =
        .ok (Function.update Hosts.new ['h'] (some [1, 2, 3])) := by
    rw [appendKnownHost_fullDisk, loadKnownHosts_utf8]
    exact hline
  have hstart : loadKnownHosts "known_hosts" none none = .ok Hosts.new := rfl
  obtain ⟨-, hwhole⟩ := torn_append _ _ _ _ _ _ _ hstart hostFit_sample hload
  refine ⟨hload, fun happend => ?_⟩
  have hupdate := congrFun (hwhole happend).2 ['h']
  rw [Function.update_self, Function.update_self] at hupdate
  cases hupdate

end Axsh

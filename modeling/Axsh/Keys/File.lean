/-
# Key files

The file of a long-term key, as `axsh-keygen` writes it and the other programs read it. It is
written once: a path that exists is never opened for writing again. A write may still stop
anywhere, and no front of a bundle other than the whole of it loads. So whatever `axsh-keygen`
has met on a path, one key is behind it at most, and the program that reported success has
written it.

PKCS#8 is the cryptographic library's encoding of a key pair; the development takes it as given.
-/

import Axsh.Keys.Bundle
import Axsh.KnownHosts.Torn
import Mathlib.Logic.Relation

set_option autoImplicit false

namespace Axsh

/-! ## Errors with context -/

/-- `?` on an `std::io::Result` in a function that returns an `anyhow::Result`. -/
def anyhow {α : Type} : Res α → Res α
  | .error (.error _ message) => bail message
  | result => result

/-- `Context::with_context`: the context is what the error displays. -/
def withContext {α : Type} (context : String) : Res α → Res α
  | .error (.error _ _) => bail context
  | result => result

/-! ## The file of a key -/

/-- PKCS#8, as the cryptographic library encodes and decodes key pairs. -/
structure Pkcs8 (C : Crypto) where
  mlDsaToPkcs8 : C.MlDsaKeyPair → Res Bytes
  mlDsaFromPkcs8 : Bytes → Res C.MlDsaKeyPair
  ed25519ToPkcs8v1 : C.Ed25519KeyPair → Res Bytes
  ed25519FromPkcs8 : Bytes → Res C.Ed25519KeyPair

/-- What is encoded decodes to the key pair. -/
structure Pkcs8.Correct {C : Crypto} (P : Pkcs8 C) : Prop where
  mlDsa : ∀ keyPair pkcs8, P.mlDsaToPkcs8 keyPair = .ok pkcs8 →
    P.mlDsaFromPkcs8 pkcs8 = .ok keyPair
  ed25519 : ∀ keyPair pkcs8, P.ed25519ToPkcs8v1 keyPair = .ok pkcs8 →
    P.ed25519FromPkcs8 pkcs8 = .ok keyPair

/-- `ConnSign` with the encodings that it keeps of its key pairs. -/
structure StoredConnSign (C : Crypto) extends ConnSign C where
  mlDsaPkcs8 : Bytes
  ed25519Pkcs8 : Bytes

/-- The errors that the operating system reports to one `write_to_file`, other than that the file
exists. -/
structure CreateFaults where
  opening : Option (ErrorKind × String)
  write : ℕ → Option (ℕ × FileFault)

namespace StoredConnSign

variable {C : Crypto} (P : Pkcs8 C)

/-- `ConnSign::new`, with what the library generates. -/
def new (mlDsa : Res C.MlDsaKeyPair) (ed25519 : Res C.Ed25519KeyPair) : Res (StoredConnSign C) := do
  let mlDsaKeyPair ← mlDsa
  let mlDsaPkcs8 ← P.mlDsaToPkcs8 mlDsaKeyPair
  let ed25519KeyPair ← ed25519
  let ed25519Pkcs8 ← P.ed25519ToPkcs8v1 ed25519KeyPair
  return { mlDsaKeyPair, ed25519KeyPair, quantumInsecure := false, mlDsaPkcs8, ed25519Pkcs8 }

/-- `ConnSign::from_bytes`. -/
def fromBytes (bytes : Bytes) : Res (StoredConnSign C) := do
  let (mlDsaPkcs8, ed25519Pkcs8) ← decodeConnPrivateKeyBundle bytes
  let mlDsaKeyPair ← P.mlDsaFromPkcs8 mlDsaPkcs8
  let ed25519KeyPair ← P.ed25519FromPkcs8 ed25519Pkcs8
  return { mlDsaKeyPair, ed25519KeyPair, quantumInsecure := false, mlDsaPkcs8, ed25519Pkcs8 }

/-- `ConnSign::from_file`. -/
def fromFile (path : String) (fault : Option FileFault) (file : Option Bytes) :
    Res (StoredConnSign C) := do
  let bytes ← withContext ("failed to read ConnSign key file " ++ path) (fsRead fault file)
  fromBytes P bytes

/-- `ConnSignBuilder::from_file`. -/
def builderFromFile (quantumInsecure : Bool) (path : String) (fault : Option FileFault)
    (file : Option Bytes) : Res (StoredConnSign C) := do
  let cs ← fromFile P path fault file
  return { cs with quantumInsecure }

/-- `ConnSign::write_to_file`: the file after it, and its result. -/
def writeToFile (self : StoredConnSign C) (path : String) (faults : CreateFaults)
    (file : Option Bytes) : Option Bytes × Res Unit :=
  match encodeConnPrivateKeyBundle self.mlDsaPkcs8 self.ed25519Pkcs8 with
  | .error e => (file, .error e)
  | .ok bundle =>
    match faults.opening, file with
    | none, none =>
      let written := writeAllPieces [bundle] faults.write []
      (some written.1, anyhow written.2)
    -- A file that exists is not opened: `create_new(true)`.
    | _, _ => (file, bail ("failed to create ConnSign key file " ++ path))

end StoredConnSign

/-- `axsh-keygen`: the file after it, and what it prints. -/
def keygen {C : Crypto} (P : Pkcs8 C) (path : String) (mlDsa : Res C.MlDsaKeyPair)
    (ed25519 : Res C.Ed25519KeyPair) (faults : CreateFaults) (file : Option Bytes) :
    Option Bytes × Res Text :=
  match StoredConnSign.new P mlDsa ed25519 with
  | .error e => (file, .error e)
  | .ok key =>
    let written := key.writeToFile path faults file
    (written.1, do
      written.2
      return ("wrote " ++ path ++ "\n").toList)

/-- `axsh-pubkey`: what it prints. -/
def pubkey {C : Crypto} (P : Pkcs8 C) (path : String) (fault : Option FileFault)
    (file : Option Bytes) : Res Text := do
  let key ← StoredConnSign.fromFile P path fault file
  return formatAuthorizedConnKey key.publicKeyBytes ++ ['\n']

/-! ## Fronts of a bundle -/

theorem toNat_eq_of_u32ToBeBytes {m n : UInt32} (h : u32ToBeBytes m = u32ToBeBytes n) :
    m.toNat = n.toNat := by
  have hm := usizeFromBeBytes_toBeBytes m ""
  rw [h, usizeFromBeBytes_toBeBytes] at hm
  exact (Except.ok.inj hm).symm

/-- A front of a bundle that is a bundle is all of it: the two lengths say where it ends. -/
theorem eq_of_isPrefix_bundle {a b front data : Bytes} {pair : Bytes × Bytes}
    (hdata : encodeConnPrivateKeyBundle a b = .ok data) (hfront : front <+: data)
    (hdecode : decodeConnPrivateKeyBundle front = .ok pair) : front = data := by
  obtain ⟨m, n, hm, hn, rfl⟩ := encodeConnPrivateKeyBundle_eq_ok_iff.mp hdata
  obtain ⟨m', n', hm', hn', rfl⟩ :=
    encodeConnPrivateKeyBundle_eq_ok_iff.mp (decodeConnPrivateKeyBundle_eq_ok_iff.mp hdecode)
  obtain ⟨rest, hrest⟩ := hfront
  have hlengths := hrest
  simp only [privateKeyBundle, List.append_assoc] at hlengths
  obtain ⟨hfirst, hlengths⟩ := List.append_inj (List.append_cancel_left hlengths) (by simp)
  obtain ⟨hsecond, -⟩ := List.append_inj hlengths (by simp)
  -- Both are as long as the same two lengths say, so nothing is missing.
  have htotal := congrArg List.length hrest
  rw [List.length_append, length_privateKeyBundle, length_privateKeyBundle, List.length_append,
    List.length_append, hm, hn, hm', hn', toNat_eq_of_u32ToBeBytes hfirst,
    toNat_eq_of_u32ToBeBytes hsecond] at htotal
  obtain rfl : rest = [] := List.length_eq_zero_iff.mp (by omega)
  rw [← hrest, List.append_nil]

section Made

variable {C : Crypto} {P : Pkcs8 C} {key key' : StoredConnSign C} {path : String}

/-- A key that `ConnSign::new` has made. -/
def Made (P : Pkcs8 C) (key : StoredConnSign C) : Prop :=
  ∃ mlDsa ed25519, StoredConnSign.new P mlDsa ed25519 = .ok key

/-- Such a key is not insecure, and keeps the encodings of its key pairs. -/
theorem Made.eq (h : Made P key) : key.quantumInsecure = false ∧
    P.mlDsaToPkcs8 key.mlDsaKeyPair = .ok key.mlDsaPkcs8 ∧
    P.ed25519ToPkcs8v1 key.ed25519KeyPair = .ok key.ed25519Pkcs8 := by
  obtain ⟨mlDsa, ed25519, h⟩ := h
  obtain ⟨mlDsaKeyPair, -, h⟩ := bind_eq_ok.mp h
  obtain ⟨mlDsaPkcs8, hmlDsa, h⟩ := bind_eq_ok.mp h
  obtain ⟨ed25519KeyPair, -, h⟩ := bind_eq_ok.mp h
  obtain ⟨ed25519Pkcs8, hed25519, h⟩ := bind_eq_ok.mp h
  obtain rfl := Except.ok.inj h
  exact ⟨rfl, hmlDsa, hed25519⟩

/-- Its bundle loads as the key. -/
theorem Made.fromBytes (hP : P.Correct) (h : Made P key) {bundle : Bytes}
    (hbundle : encodeConnPrivateKeyBundle key.mlDsaPkcs8 key.ed25519Pkcs8 = .ok bundle) :
    StoredConnSign.fromBytes P bundle = .ok key := by
  obtain ⟨hmode, hmlDsa, hed25519⟩ := h.eq
  simp only [StoredConnSign.fromBytes, decodeConnPrivateKeyBundle_eq_ok_iff.mpr hbundle, ok_bind,
    hP.mlDsa _ _ hmlDsa, hP.ed25519 _ _ hed25519]
  obtain ⟨⟨mlDsaKeyPair, ed25519KeyPair, quantumInsecure⟩, mlDsaPkcs8, ed25519Pkcs8⟩ := key
  obtain rfl : quantumInsecure = false := hmode
  rfl

/-- A front of a bundle that loads is all of it. -/
theorem eq_of_fromBytes {a b bundle front : Bytes}
    (hbundle : encodeConnPrivateKeyBundle a b = .ok bundle) (hfront : front <+: bundle)
    (hload : StoredConnSign.fromBytes P front = .ok key) : front = bundle := by
  obtain ⟨pair, hdecode, -⟩ := bind_eq_ok.mp hload
  exact eq_of_isPrefix_bundle hbundle hfront hdecode

/-- So it loads as nothing else than the key. -/
theorem Made.eq_of_fromBytes (hP : P.Correct) (h : Made P key) {bundle front : Bytes}
    (hbundle : encodeConnPrivateKeyBundle key.mlDsaPkcs8 key.ed25519Pkcs8 = .ok bundle)
    (hfront : front <+: bundle) (hload : StoredConnSign.fromBytes P front = .ok key') :
    key' = key := by
  rw [Axsh.eq_of_fromBytes hbundle hfront hload, h.fromBytes hP hbundle] at hload
  exact (Except.ok.inj hload).symm

/-- Reading a file that is there. -/
theorem fromFile_some (bytes : Bytes) :
    StoredConnSign.fromFile P path none (some bytes) = StoredConnSign.fromBytes P bytes := rfl

theorem fromFile_none_ne : StoredConnSign.fromFile P path none none ≠ .ok key :=
  bail_ne_ok _ _

end Made

/-- `write_to_file` leaves the file alone and fails, or it creates it with a front of the bundle,
which is all of it if there is no error. -/
theorem writeToFile_cases {C : Crypto} (key : StoredConnSign C) (path : String)
    (faults : CreateFaults) (file : Option Bytes) :
    ((key.writeToFile path faults file).1 = file ∧
        ∃ e, (key.writeToFile path faults file).2 = .error e) ∨
      file = none ∧ ∃ bundle front,
        encodeConnPrivateKeyBundle key.mlDsaPkcs8 key.ed25519Pkcs8 = .ok bundle ∧
        front <+: bundle ∧ (key.writeToFile path faults file).1 = some front ∧
        ((key.writeToFile path faults file).2 = .ok () → front = bundle) := by
  unfold StoredConnSign.writeToFile
  cases hbundle : encodeConnPrivateKeyBundle key.mlDsaPkcs8 key.ed25519Pkcs8 with
  | error e => exact .inl ⟨rfl, e, rfl⟩
  | ok bundle =>
    match faults.opening, file with
    | some fault, file => exact .inl ⟨rfl, _, rfl⟩
    | none, some bytes => exact .inl ⟨rfl, _, rfl⟩
    | none, none =>
      refine .inr ⟨rfl, bundle, (writeAllPieces [bundle] faults.write []).1, rfl, ?_, rfl, ?_⟩
      · obtain ⟨written, hwritten, hfile⟩ := writeAllPieces_isPrefix [bundle] faults.write []
        rw [hfile, List.nil_append]
        simpa using hwritten
      · intro hok
        have hwritten : (writeAllPieces [bundle] faults.write []).2 = .ok () := by
          cases hresult : (writeAllPieces [bundle] faults.write []).2 with
          | ok _ => rfl
          | error e => cases e <;> simp [hresult, anyhow, bail] at hok
        simpa using writeAllPieces_of_ok hwritten

/-! ## A history of one path -/

/-- The file at a path, the keys that were generated for it, and those whose program has reported
success. -/
structure KeyHistory (C : Crypto) where
  file : Option Bytes
  generated : List (StoredConnSign C)
  finished : List (StoredConnSign C)

namespace KeyHistory

variable {C : Crypto} {P : Pkcs8 C} {path : String} {w w' : KeyHistory C}

/-- After one `axsh-keygen`. A program that is ended while it writes leaves what an error there
leaves. -/
def after (P : Pkcs8 C) (path : String) (mlDsa : Res C.MlDsaKeyPair)
    (ed25519 : Res C.Ed25519KeyPair) (faults : CreateFaults) (w : KeyHistory C) : KeyHistory C :=
  let ran := keygen P path mlDsa ed25519 faults w.file
  match StoredConnSign.new P mlDsa ed25519 with
  | .error _ => { w with file := ran.1 }
  | .ok key =>
    { file := ran.1
      generated := w.generated ++ [key]
      finished := w.finished ++ if ran.2.isOk then [key] else [] }

/-- One `axsh-keygen` on the path, with any keys and any errors. -/
def Step (P : Pkcs8 C) (path : String) (w w' : KeyHistory C) : Prop :=
  ∃ mlDsa ed25519 faults, w' = w.after P path mlDsa ed25519 faults

/-- Any number of them. -/
abbrev Run (P : Pkcs8 C) (path : String) : KeyHistory C → KeyHistory C → Prop :=
  Relation.ReflTransGen (Step P path)

/-- What one `axsh-keygen` does: it leaves the file alone and reports an error, or it creates the
file with a front of its key's bundle, which is all of it if the program reports success. -/
theorem step_cases (hstep : Step P path w w') :
    (w'.file = w.file ∧ w'.finished = w.finished ∧ w.generated ⊆ w'.generated) ∨
      w.file = none ∧ ∃ key bundle front, Made P key ∧
        encodeConnPrivateKeyBundle key.mlDsaPkcs8 key.ed25519Pkcs8 = .ok bundle ∧
        front <+: bundle ∧ w'.file = some front ∧ key ∈ w'.generated ∧
        (w'.finished = w.finished ∨ w'.finished = w.finished ++ [key] ∧ front = bundle) := by
  obtain ⟨mlDsa, ed25519, faults, rfl⟩ := hstep
  cases hnew : StoredConnSign.new P mlDsa ed25519 with
  | error e => exact .inl (by simp [after, keygen, hnew])
  | ok key =>
    have hafter : w.after P path mlDsa ed25519 faults =
        { file := (key.writeToFile path faults w.file).1
          generated := w.generated ++ [key]
          finished := w.finished ++
            if (key.writeToFile path faults w.file).2.isOk then [key] else [] } := by
      simp only [after, keygen, hnew]
      cases (key.writeToFile path faults w.file).2 <;> rfl
    rw [hafter]
    rcases writeToFile_cases key path faults w.file with
      ⟨hfile, e, herror⟩ | ⟨hnone, bundle, front, hbundle, hfront, hfile, hwhole⟩
    · exact .inl ⟨hfile, by simp [herror, Res.isOk], List.subset_append_left _ _⟩
    · refine .inr ⟨hnone, key, bundle, front, ⟨mlDsa, ed25519, hnew⟩, hbundle, hfront, hfile,
        by simp, ?_⟩
      cases hresult : (key.writeToFile path faults w.file).2 with
      | error e => exact .inl (by simp [Res.isOk])
      | ok _ => exact .inr ⟨by simp [Res.isOk], hwhole hresult⟩

/-- What holds of a path that did not exist: it still does not, or it has a front of the bundle of
one key that was generated for it, and only that key's program can have reported success. -/
def Once (P : Pkcs8 C) (w : KeyHistory C) : Prop :=
  w.file = none ∧ w.finished = [] ∨ ∃ key bundle front, Made P key ∧
    encodeConnPrivateKeyBundle key.mlDsaPkcs8 key.ed25519Pkcs8 = .ok bundle ∧
    front <+: bundle ∧ w.file = some front ∧ key ∈ w.generated ∧
    (w.finished = [] ∨ w.finished = [key] ∧ front = bundle)

theorem Once.step (h : w.Once P) (hstep : Step P path w w') : w'.Once P := by
  rcases step_cases hstep with ⟨hfile, hfinished, hgenerated⟩ |
    ⟨hnone, key, bundle, front, hmade, hbundle, hfront, hfile, hmem, hfinished⟩
  · rcases h with ⟨hnone, hnil⟩ | ⟨key, bundle, front, hmade, hbundle, hfront, hsome, hmem, hkeys⟩
    · exact .inl ⟨hfile.trans hnone, hfinished.trans hnil⟩
    · exact .inr ⟨key, bundle, front, hmade, hbundle, hfront, hfile.trans hsome, hgenerated hmem,
        by rwa [hfinished]⟩
  · -- The file is created, so it was not there and nobody has finished before.
    rcases h with ⟨-, hnil⟩ | ⟨_, _, _, -, -, -, hsome, -⟩
    · rw [hnil, List.nil_append] at hfinished
      exact .inr ⟨key, bundle, front, hmade, hbundle, hfront, hfile, hmem, hfinished⟩
    · cases hnone.symm.trans hsome

theorem Once.run (h : w.Once P) (hrun : Run P path w w') : w'.Once P := by
  induction hrun with
  | refl => exact h
  | tail _ hstep ih => exact ih.step hstep

/-- A file that exists is never changed. -/
theorem file_of_run {bytes : Bytes} (hfile : w.file = some bytes) (hrun : Run P path w w') :
    w'.file = some bytes := by
  induction hrun with
  | refl => exact hfile
  | tail _ hstep ih =>
    rcases step_cases hstep with ⟨hsame, -⟩ | ⟨hnone, -⟩
    · exact hsame.trans ih
    · cases hnone.symm.trans ih

/-- The program that has reported success has written the key that loads. -/
theorem Once.finished (hP : P.Correct) (h : w.Once P) : w.finished = [] ∨ ∃ key,
    w.finished = [key] ∧ StoredConnSign.fromFile P path none w.file = .ok key := by
  rcases h with ⟨-, hnil⟩ | ⟨key, bundle, front, hmade, hbundle, -, hfile, -, hnil | ⟨hkey, rfl⟩⟩
  · exact .inl hnil
  · exact .inl hnil
  · refine .inr ⟨key, hkey, ?_⟩
    rw [hfile, fromFile_some, hmade.fromBytes hP hbundle]

/-- A file that loads is the bundle of a key that was generated for it, and loads as that key. -/
theorem Once.generated (hP : P.Correct) (h : w.Once P) {key : StoredConnSign C}
    (hload : StoredConnSign.fromFile P path none w.file = .ok key) :
    key ∈ w.generated ∧ ∃ bundle, w.file = some bundle ∧
      encodeConnPrivateKeyBundle key.mlDsaPkcs8 key.ed25519Pkcs8 = .ok bundle := by
  rcases h with ⟨hnone, -⟩ | ⟨made, bundle, front, hmade, hbundle, hfront, hfile, hmem, -⟩
  · rw [hnone] at hload
    exact absurd hload fromFile_none_ne
  · rw [hfile, fromFile_some] at hload
    rw [hmade.eq_of_fromBytes hP hbundle hfront hload]
    exact ⟨hmem, bundle, hfile.trans (congrArg some (eq_of_fromBytes hbundle hfront hload)),
      hbundle⟩

end KeyHistory

/-- Any number of `axsh-keygen` programs on a path that did not exist, each with its own keys, and
each ended anywhere, by an error or otherwise. At most one of them reports success, and from then
on the path loads as its key. Whenever the path loads at all, its file is the whole bundle of one
of the keys that were generated, it loads as that key, with the encodings it was generated with, and
from then on it does so. A file that holds less than a whole bundle loads as no key. -/
theorem keygen_once {C : Crypto} (P : Pkcs8 C) (hP : P.Correct) (path : String)
    (w w' : KeyHistory C) (hrun : KeyHistory.Run P path ⟨none, [], []⟩ w)
    (hlater : KeyHistory.Run P path w w') :
    (w.finished = [] ∨ ∃ key, w.finished = [key] ∧
      StoredConnSign.fromFile P path none w'.file = .ok key) ∧
    (∀ key, StoredConnSign.fromFile P path none w.file = .ok key →
      (key ∈ w.generated ∧ ∃ bundle, w.file = some bundle ∧
        encodeConnPrivateKeyBundle key.mlDsaPkcs8 key.ed25519Pkcs8 = .ok bundle) ∧
      StoredConnSign.fromFile P path none w'.file = .ok key) ∧
    ∀ a b bundle front : Bytes, encodeConnPrivateKeyBundle a b = .ok bundle → front <+: bundle →
      front ≠ bundle → ∀ key, StoredConnSign.fromFile P path none (some front) ≠ .ok key := by
  have honce : w.Once P := KeyHistory.Once.run (.inl ⟨rfl, rfl⟩) hrun
  have hstable : ∀ key, StoredConnSign.fromFile P path none w.file = .ok key →
      StoredConnSign.fromFile P path none w'.file = .ok key := by
    intro key hload
    cases hfile : w.file with
    | none =>
      rw [hfile] at hload
      exact absurd hload fromFile_none_ne
    | some bytes =>
      rw [hfile] at hload
      rwa [KeyHistory.file_of_run hfile hlater]
  refine ⟨?_, fun key hload => ⟨honce.generated hP hload, hstable key hload⟩,
    fun a b bundle front hbundle hfront hne key hload =>
      hne (eq_of_fromBytes hbundle hfront hload)⟩
  rcases honce.finished hP with hnil | ⟨key, hkey, hload⟩
  · exact .inl hnil
  · exact .inr ⟨key, hkey, hstable key hload⟩

/-! ## A sample history -/

/-- The sample library's key pairs are bytes, and their own encodings. -/
def Pkcs8.sample : Pkcs8 Crypto.sample where
  mlDsaToPkcs8 keyPair := .ok [keyPair]
  mlDsaFromPkcs8
    | [keyPair] => .ok keyPair
    | _ => bail "invalid encoding"
  ed25519ToPkcs8v1 keyPair := .ok [keyPair]
  ed25519FromPkcs8
    | [keyPair] => .ok keyPair
    | _ => bail "invalid encoding"

theorem Pkcs8.correct_sample : Pkcs8.sample.Correct where
  mlDsa keyPair pkcs8 h := by
    obtain rfl := Except.ok.inj h
    rfl
  ed25519 keyPair pkcs8 h := by
    obtain rfl := Except.ok.inj h
    rfl

/-- After a program that the operating system reports no errors to. -/
def KeyHistory.sampleAfter (w : KeyHistory Crypto.sample) : KeyHistory Crypto.sample :=
  w.after .sample "axsh.pk8" (.ok (1 : UInt8)) (.ok (2 : UInt8)) ⟨none, fun _ => none⟩

theorem KeyHistory.step_sampleAfter (w : KeyHistory Crypto.sample) :
    Step Pkcs8.sample "axsh.pk8" w w.sampleAfter := ⟨_, _, _, rfl⟩

/-- After one program on a path that does not exist. -/
def sampleGenerated : KeyHistory Crypto.sample := KeyHistory.sampleAfter ⟨none, [], []⟩

/-- The first of two programs has written the key that loads after the second. -/
theorem keygen_once_sampleGenerated : sampleGenerated.sampleAfter.generated.length = 2 ∧
    ∃ key, sampleGenerated.finished = [key] ∧ StoredConnSign.fromFile Pkcs8.sample "axsh.pk8" none
      sampleGenerated.sampleAfter.file = .ok key := by
  obtain ⟨hnil | hkey, -, -⟩ := keygen_once Pkcs8.sample Pkcs8.correct_sample "axsh.pk8"
    sampleGenerated _ (.single (KeyHistory.step_sampleAfter _))
    (.single (KeyHistory.step_sampleAfter sampleGenerated))
  · cases hnil
  · exact ⟨rfl, hkey⟩

end Axsh

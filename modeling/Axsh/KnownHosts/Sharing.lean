/-
# Client processes that share a known-hosts file

Any number of client processes run side by side on one known-hosts file. Each loads
the file when it starts; one that finds no entry for its host may, after its user has
confirmed the key, check the end of the file, open it and append an entry piece by
piece. The steps of different processes interleave freely, and each write is one
atomic append.

The check that a host is not listed stands far from the write of its entry, and the
check for a final newline stands apart from it too. The file stays loadable along
every run in which both hold when an entry is written. Two processes for one host
break it otherwise.
-/

import Axsh.KnownHosts.Loading
import Mathlib.Logic.Relation

set_option autoImplicit false

namespace Axsh.KnownHosts

/-- How far a process has come, as far as the file is concerned. A process that an
error ends takes no further step. -/
inductive Stage
  /-- Before `load_known_hosts`. -/
  | start
  /-- The loaded entries do not have the host; the handshake and the user's answer
  are to come. -/
  | unlisted
  /-- The user has confirmed the key. -/
  | confirmed (publicKey : Bytes)
  /-- `append_known_host` has read the file. -/
  | checked (publicKey : Bytes) (newline : Bool)
  /-- `append_known_host` has opened the file; these pieces are still to write. -/
  | writing (pieces : List Bytes)
  /-- Nothing more to do with the file. -/
  | finished

/-- The file and the processes, indexed by `ι`. -/
structure World (ι : Type*) where
  file : Option Bytes
  stage : ι → Stage

section Steps

variable {ι : Type*} [DecidableEq ι]

/-- One process goes on to another stage. -/
def World.move (w : World ι) (p : ι) (stage : Stage) : World ι :=
  { w with stage := Function.update w.stage p stage }

@[simp] theorem World.move_stage_self (w : World ι) (p : ι) (stage : Stage) :
    (w.move p stage).stage p = stage := Function.update_self ..

/-- A step of process `p`, which connects to `host p`. -/
inductive Step (path : String) (host : ι → Text) (p : ι) : World ι → World ι → Prop
  /-- `load_known_hosts` accepts the file. A listed host needs no entry. -/
  | load (w : World ι) (hosts : Hosts) (hstage : w.stage p = .start)
      (hload : loadKnownHosts path none w.file = .ok hosts) :
      Step path host p w (w.move p (if (hosts (host p)).isSome then .finished else .unlisted))
  /-- `load_known_hosts` rejects the file, and the process ends. -/
  | reject (w : World ι) (e : Failure) (hstage : w.stage p = .start)
      (hload : loadKnownHosts path none w.file = .error e) :
      Step path host p w (w.move p .finished)
  /-- The user confirms the key that the server has sent. -/
  | confirm (w : World ι) (publicKey : Bytes) (hstage : w.stage p = .unlisted)
      (hkey : publicKey ≠ []) : Step path host p w (w.move p (.confirmed publicKey))
  /-- `append_known_host` reads the file to see whether it needs a newline. -/
  | check (w : World ι) (publicKey : Bytes) (newline : Bool)
      (hstage : w.stage p = .confirmed publicKey)
      (hcheck : needsNewline path none w.file = .ok newline) :
      Step path host p w (w.move p (.checked publicKey newline))
  /-- `append_known_host` opens the file, which creates it when it is missing. -/
  | openFile (w : World ι) (publicKey : Bytes) (newline : Bool)
      (hstage : w.stage p = .checked publicKey newline) :
      Step path host p w ({ w with file := some (w.file.getD []) }.move p
        (.writing (appendPieces newline (host p) publicKey)))
  /-- One `write_all` of `append_known_host`. -/
  | write (w : World ι) (piece : Bytes) (pieces : List Bytes)
      (hstage : w.stage p = .writing (piece :: pieces)) :
      Step path host p w ({ w with file := some (w.file.getD [] ++ piece) }.move p
        (.writing pieces))

/-- Any process takes a step. -/
def Steps (path : String) (host : ι → Text) (w w' : World ι) : Prop := ∃ p, Step path host p w w'

end Steps

variable {ι : Type*}

/-- All processes are about to start, on a file the loader accepts. -/
structure Initial (path : String) (w : World ι) : Prop where
  stage_eq : ∀ p, w.stage p = .start
  load_eq : ∃ hosts, loadKnownHosts path none w.file = .ok hosts

/-- No append is half done. -/
def Quiet (w : World ι) : Prop := ∀ p piece pieces, w.stage p ≠ .writing (piece :: pieces)

/-! ## When an entry can be written -/

/-- If the process is about to write its entry, then the file ends its last line
and no line of it is an entry for the host of the process. -/
def Clear (host : ι → Text) (w : World ι) (p : ι) : Prop :=
  ∀ publicKey pieces, w.stage p = .writing (utf8 (formatKnownHost (host p) publicKey) :: pieces) →
    ∀ contents, w.file.getD [] = utf8 contents →
      (contents = [] ∨ contents.getLast? = some '\n') ∧
        ∀ line ∈ lines contents, ∀ key, parseKnownHost (trim line) ≠ .ok (host p, key)

/-- What a process holds: a key that is not empty, or pieces of an entry with one. -/
def Stage.Fits (host : Text) : Stage → Prop
  | .confirmed publicKey | .checked publicKey _ => publicKey ≠ []
  | .writing pieces => ∀ piece ∈ pieces,
      piece = utf8 ['\n'] ∨ ∃ publicKey ≠ [], piece = utf8 (formatKnownHost host publicKey)
  | .start | .unlisted | .finished => True

theorem fits_appendPieces (host : Text) (newline : Bool) {publicKey : Bytes}
    (hkey : publicKey ≠ []) : (Stage.writing (appendPieces newline host publicKey)).Fits host := by
  intro piece hpiece
  rcases List.mem_append.mp hpiece with hpiece | hpiece
  · cases newline with
    | false => cases hpiece
    | true => exact .inl (List.mem_singleton.mp hpiece)
  · rcases List.mem_pair.mp hpiece with rfl | rfl
    · exact .inr ⟨publicKey, hkey, rfl⟩
    · exact .inl rfl

/-- The file is a text that the loader accepts, and every process holds what it may
write. -/
structure Sound (path : String) (host : ι → Text) (w : World ι) : Prop where
  contents : ∃ contents hosts, w.file.getD [] = utf8 contents ∧ loadLines path contents = .ok hosts
  fits : ∀ p, (w.stage p).Fits (host p)

section Sound

variable {path : String} {host : ι → Text} {w w' : World ι} {p : ι}

/-- The loader accepts the file of a sound world. -/
theorem Sound.load_eq (h : Sound path host w) :
    ∃ hosts, loadKnownHosts path none w.file = .ok hosts := by
  obtain ⟨contents, hosts, hfile, hload⟩ := h.contents
  cases hw : w.file with
  | none => exact ⟨Hosts.new, rfl⟩
  | some bytes =>
    obtain rfl : bytes = utf8 contents := by rw [← hfile, hw, Option.getD_some]
    exact ⟨hosts, (loadKnownHosts_utf8 path contents).trans hload⟩

theorem Initial.sound (h : Initial path w) : Sound path host w where
  contents := by
    obtain ⟨hosts, hload⟩ := h.load_eq
    obtain ⟨contents, hfile, hcontents⟩ := exists_contents_of_load hload
    exact ⟨contents, hosts, hfile, hcontents⟩
  fits p := by rw [h.stage_eq p]; trivial

/-- A newline does not change what is loaded. -/
theorem Sound.contents_newline (h : Sound path host w) :
    ∃ contents hosts, w.file.getD [] ++ utf8 ['\n'] = utf8 contents ∧
      loadLines path contents = .ok hosts := by
  obtain ⟨contents, hosts, hfile, hload⟩ := h.contents
  refine ⟨contents ++ ['\n'], hosts, ?_, ?_⟩
  · rw [hfile, utf8_append]
  · rw [loadLines_append_newline, hload]

/-- An entry adds its host to what is loaded, if the state is clear for it. -/
theorem Sound.contents_entry (h : Sound path host w) (hhost : HostFit (host p))
    {publicKey : Bytes} {pieces : List Bytes} (hkey : publicKey ≠ [])
    (hstage : w.stage p = .writing (utf8 (formatKnownHost (host p) publicKey) :: pieces))
    (hclear : Clear host w p) :
    ∃ contents hosts, w.file.getD [] ++ utf8 (formatKnownHost (host p) publicKey) =
      utf8 contents ∧ loadLines path contents = .ok hosts := by
  obtain ⟨contents, hosts, hfile, hload⟩ := h.contents
  obtain ⟨hends, hlines⟩ := hclear publicKey pieces hstage contents hfile
  -- What the loader has for the host would stand on a line of the file.
  have hnew : hosts (host p) = none := by
    cases hlisted : hosts (host p) with
    | none => rfl
    | some key =>
      obtain ⟨line, hline, hparse⟩ := exists_line_of_loadLines hload hlisted
      exact absurd hparse (hlines line hline key)
  refine ⟨contents ++ formatKnownHost (host p) publicKey,
    Function.update hosts (host p) (some publicKey), by rw [hfile, utf8_append], ?_⟩
  rw [loadLines_append (Lines.split_snd_eq_nil_iff.mpr hends) (notMem_formatKnownHost hhost)
    formatKnownHost_ne_nil, hload, ok_bind, loadLine_formatKnownHost hhost hkey, hnew]
  rfl

variable [DecidableEq ι]

/-- A process that moves leaves the others as they are. -/
theorem Sound.move {file : Option Bytes} {stage : Stage} (h : Sound path host w)
    (hcontents : ∃ contents hosts, file.getD [] = utf8 contents ∧
      loadLines path contents = .ok hosts)
    (hstage : stage.Fits (host p)) : Sound path host ({ w with file := file }.move p stage) where
  contents := hcontents
  fits q := by
    by_cases hq : q = p
    · subst hq
      rwa [World.move_stage_self]
    · have hother : ({ w with file := file }.move p stage).stage q = w.stage q :=
        Function.update_of_ne hq ..
      rw [hother]
      exact h.fits q

/-- A step from a clear state keeps the world sound. -/
theorem Sound.step (h : Sound path host w) (hhost : HostFit (host p)) (hclear : Clear host w p)
    (hstep : Step path host p w w') : Sound path host w' := by
  cases hstep with
  -- Only a write changes the file. The other steps move their process to its next stage.
  | load hosts hstage hload =>
    apply h.move h.contents
    split_ifs <;> trivial
  | reject e hstage hload => exact h.move h.contents trivial
  | confirm publicKey hstage hkey => exact h.move h.contents hkey
  | check publicKey newline hstage hcheck =>
    have hkey : (Stage.confirmed publicKey).Fits (host p) := hstage ▸ h.fits p
    exact h.move h.contents hkey
  | openFile publicKey newline hstage =>
    have hkey : (Stage.checked publicKey newline).Fits (host p) := hstage ▸ h.fits p
    exact h.move h.contents (fits_appendPieces (host p) newline hkey)
  | write piece pieces hstage =>
    have hfits : (Stage.writing (piece :: pieces)).Fits (host p) := hstage ▸ h.fits p
    have hpieces : (Stage.writing pieces).Fits (host p) :=
      fun later hlater => hfits later (List.mem_cons_of_mem _ hlater)
    refine h.move ?_ hpieces
    -- A newline keeps any text loadable; the entry does because the state is clear for it.
    rcases hfits piece List.mem_cons_self with rfl | ⟨publicKey, hkey, rfl⟩
    · exact h.contents_newline
    · exact h.contents_entry hhost hkey hstage hclear

end Sound

/-! ## A process that is not interrupted -/

section Alone

variable [DecidableEq ι] {path : String} {host : ι → Text} {w : World ι} {p : ι}

/-- The writes of one process in a row append all its pieces. -/
theorem steps_write {bytes : Bytes} {pieces : List Bytes} (hfile : w.file = some bytes)
    (hstage : w.stage p = .writing pieces) :
    Relation.ReflTransGen (Steps path host) w
      ({ w with file := some (bytes ++ pieces.flatten) }.move p (.writing [])) := by
  induction pieces generalizing w bytes with
  | nil =>
    have hself : { w with file := some (bytes ++ [].flatten) }.move p (.writing []) = w := by
      rw [List.flatten_nil, List.append_nil, ← hfile, ← hstage, World.move,
        Function.update_eq_self]
    rw [hself]
  | cons piece pieces ih =>
    have hwrite : Step path host p w _ := .write w piece pieces hstage
    rw [hfile, Option.getD_some] at hwrite
    refine .head ⟨p, hwrite⟩ ?_
    have hrest := ih (w := { w with file := some (bytes ++ piece) }.move p (.writing pieces)) rfl
      (World.move_stage_self ..)
    simpa [World.move, Function.update_idem] using hrest

/-- A process that is not interrupted from the check to the last piece does what
`append_known_host` does, when the operating system reports no errors. -/
theorem steps_append {publicKey : Bytes} {newline : Bool}
    (hstage : w.stage p = .confirmed publicKey)
    (hcheck : needsNewline path none w.file = .ok newline) :
    Relation.ReflTransGen (Steps path host) w
      ({ w with file := (appendKnownHost path (host p) publicKey .none w.file).1 }.move p
        (.writing [])) := by
  have hread : Step path host p w _ := .check w publicKey newline hstage hcheck
  have hopen : Step path host p (w.move p (.checked publicKey newline)) _ :=
    .openFile _ publicKey newline (World.move_stage_self ..)
  refine .head ⟨p, hread⟩ (.head ⟨p, hopen⟩ ?_)
  rw [appendKnownHost_none hcheck]
  have hwrites : Relation.ReflTransGen (Steps path host)
      ({ w with file := some (w.file.getD []) }.move p
        (.writing (appendPieces newline (host p) publicKey))) _ :=
    steps_write rfl (World.move_stage_self ..)
  simpa [World.move, Function.update_idem] using hwrites

end Alone

/-- Along every run whose steps are taken in clear states, the loader accepts the
file in every state, whether or not an append is half done. -/
theorem loadable_of_clear [DecidableEq ι] (path : String) (host : ι → Text) (w w' : World ι)
    (hhost : ∀ p, HostFit (host p)) (hinitial : Initial path w)
    (hrun : Relation.ReflTransGen (fun before after => ∃ p, Clear host before p ∧
      Step path host p before after) w w') :
    ∃ hosts, loadKnownHosts path none w'.file = .ok hosts := by
  have hsound : Sound path host w' := by
    induction hrun with
    | refl => exact hinitial.sound
    | tail _ hstep ih =>
      obtain ⟨p, hclear, hstep⟩ := hstep
      exact ih.step (hhost p) hclear hstep
  exact hsound.load_eq

/-- A process that is about to write nothing, or a newline, is in a clear state. -/
theorem clear_of_stage {host : ι → Text} {w : World ι} {p : ι} {stage : Stage}
    (hhost : HostFit (host p)) (hstage : w.stage p = stage)
    (hpiece : ∀ piece pieces, stage = .writing (piece :: pieces) → piece = utf8 ['\n']) :
    Clear host w p := by
  intro publicKey pieces hwriting
  have hnewline := hpiece _ _ (hstage.symm.trans hwriting)
  exact absurd (newline_mem_utf8.mp (hnewline ▸ (by decide : (0x0a : UInt8) ∈ utf8 ['\n'])))
    (notMem_formatKnownHost hhost)

/-- The hosts of two processes. -/
def twoHosts : Bool → Text
  | false => ['h']
  | true => ['g']

theorem hostFit_twoHosts (p : Bool) : HostFit (twoHosts p) := by
  cases p with
  | false => exact hostFit_sample
  | true => exact ⟨by decide, by simp [twoHosts, isWhitespace], by decide⟩

/-- Two processes for two hosts on a missing file. Both have opened it before the first of them
writes its entry, and the second writes behind that. -/
theorem loadable_of_clear_sample :
    ∃ hosts, loadKnownHosts "known_hosts" none
      (some (utf8 (formatKnownHost ['h'] [1]) ++ utf8 ['\n'] ++ utf8 (formatKnownHost ['g'] [2]) ++
        utf8 ['\n'])) = .ok hosts := by
  have hinitial : Initial "known_hosts" (World.mk none fun _ : Bool => Stage.start) :=
    ⟨fun _ => rfl, Hosts.new, rfl⟩
  have hclear {w : World Bool} {p : Bool} {stage : Stage} (hstage : w.stage p = stage)
      (hpiece : ∀ piece pieces, stage = .writing (piece :: pieces) → piece = utf8 ['\n']) :
      Clear twoHosts w p := clear_of_stage (hostFit_twoHosts p) hstage hpiece
  have hnewline {w : World Bool} {p : Bool} (hstage : w.stage p = .writing [utf8 ['\n']]) :
      Clear twoHosts w p := hclear hstage fun piece pieces h =>
    (List.cons.inj (Stage.writing.inj h)).1.symm
  -- Before the first entry is written there is nothing in the file.
  have hfirst {w : World Bool} (hfile : w.file = some []) : Clear twoHosts w false := by
    intro publicKey pieces hstage contents hcontents
    rw [hfile] at hcontents
    obtain rfl : contents = [] := by_contra fun hne => utf8_ne_nil hne hcontents.symm
    exact ⟨.inl rfl, fun line hline => absurd hline List.not_mem_nil⟩
  -- Then there is one line, which is for the other host.
  have hsecond {w : World Bool}
      (hfile : w.file = some (utf8 (formatKnownHost ['h'] [1]) ++ utf8 ['\n'])) :
      Clear twoHosts w true := by
    intro publicKey pieces hstage contents hcontents
    rw [hfile, Option.getD_some, ← utf8_append] at hcontents
    obtain rfl := utf8_injective hcontents
    refine ⟨.inr (by simp), fun line hline key hparse => ?_⟩
    have hlines : lines (formatKnownHost ['h'] [1] ++ ['\n']) = [formatKnownHost ['h'] [1]] := by
      decide
    rw [hlines] at hline
    obtain rfl := List.mem_singleton.mp hline
    rw [trim_formatKnownHost hostFit_sample (by decide),
      parseKnownHost_format hostFit_sample (by decide)] at hparse
    cases hparse
  have hrun : Relation.ReflTransGen (fun before after => ∃ p, Clear twoHosts before p ∧
      Step "known_hosts" twoHosts p before after) (World.mk none fun _ => .start) _ :=
    .tail (.tail (.tail (.tail (.tail (.tail (.tail (.tail (.tail (.tail (.tail (.single
    ⟨false, hclear rfl (by rintro _ _ ⟨⟩), .load _ Hosts.new rfl rfl⟩)
    ⟨true, hclear rfl (by rintro _ _ ⟨⟩), .load _ Hosts.new rfl rfl⟩)
    ⟨false, hclear rfl (by rintro _ _ ⟨⟩), .confirm _ [1] rfl (by decide)⟩)
    ⟨true, hclear rfl (by rintro _ _ ⟨⟩), .confirm _ [2] rfl (by decide)⟩)
    ⟨false, hclear rfl (by rintro _ _ ⟨⟩), .check _ [1] false rfl rfl⟩)
    ⟨true, hclear rfl (by rintro _ _ ⟨⟩), .check _ [2] false rfl rfl⟩)
    ⟨false, hclear rfl (by rintro _ _ ⟨⟩), .openFile _ [1] false rfl⟩)
    ⟨true, hclear rfl (by rintro _ _ ⟨⟩), .openFile _ [2] false rfl⟩)
    ⟨false, hfirst rfl, .write _ _ _ rfl⟩)
    ⟨false, hnewline rfl, .write _ _ _ rfl⟩)
    ⟨true, hsecond rfl, .write _ _ _ rfl⟩)
    ⟨true, hnewline rfl, .write _ _ _ rfl⟩
  exact loadable_of_clear "known_hosts" twoHosts _ _ hostFit_twoHosts hinitial hrun

/-- Two processes for one host that are both confirmed by their users, on a missing
file. -/
def twoConfirmed : World Bool :=
  (((World.mk none fun _ => .start).move false .unlisted).move true .unlisted).move false
    (.confirmed [1]) |>.move true (.confirmed [2])

theorem steps_twoConfirmed :
    Relation.ReflTransGen (Steps "known_hosts" fun _ : Bool => ['h'])
      (World.mk none fun _ => .start) twoConfirmed :=
  .tail (.tail (.tail (.single ⟨false, .load _ Hosts.new rfl rfl⟩)
    ⟨true, .load _ Hosts.new rfl rfl⟩)
    ⟨false, .confirm _ [1] rfl (by decide)⟩)
    ⟨true, .confirm _ [2] rfl (by decide)⟩

/-- Two processes for one host, both started before either appends: each appends
its entry undisturbed, and the loader rejects the file of the second. -/
theorem not_loadable_of_two_processes :
    ¬ ∀ (ι : Type) [DecidableEq ι] (path : String) (host : ι → Text) (w w' : World ι),
      (∀ p, HostFit (host p)) → Initial path w →
      Relation.ReflTransGen (Steps path host) w w' → Quiet w' →
      ∃ hosts, loadKnownHosts path none w'.file = .ok hosts := by
  intro hall
  have hinitial : Initial "known_hosts" (World.mk none fun _ : Bool => Stage.start) :=
    ⟨fun _ => rfl, Hosts.new, rfl⟩
  -- The first process appends its entry, and after it the second.
  have hfirst := steps_twoConfirmed.trans (steps_append (p := false) rfl
    (needsNewline_none "known_hosts" none))
  have hsecond := hfirst.trans (steps_append (p := true) rfl (needsNewline_none "known_hosts" _))
  obtain ⟨hosts, hload⟩ := hall Bool "known_hosts" _ _ _ (fun _ => hostFit_sample)
    hinitial hsecond (by
      rintro (_ | _) piece pieces h <;> cases h)
  -- The loader has the host from the first entry when it comes to the second.
  have hempty : loadKnownHosts "known_hosts" none none = .ok Hosts.new := rfl
  have happend (publicKey : Bytes) (file : Option Bytes) :
      (appendKnownHost "known_hosts" ['h'] publicKey .none file).2 = .ok () :=
    congrArg Prod.snd (appendKnownHost_none (needsNewline_none ..))
  obtain ⟨n, hone⟩ := loadKnownHosts_append hempty hostFit_sample (happend [1] none)
  rw [loadLine_formatKnownHost hostFit_sample (by decide)] at hone
  obtain ⟨m, htwo⟩ := loadKnownHosts_append hone hostFit_sample (happend [2] _)
  rw [loadLine_formatKnownHost hostFit_sample (by decide), Function.update_self] at htwo
  cases hload.symm.trans htwo

end Axsh.KnownHosts

/-
# Loading lines

What the loaders of the known-hosts and the authorized-keys file have in common. Both go
through the lines that are relevant, those that are neither blank nor a comment; a line stands
for an entry or the file is refused, and so it is when a key comes twice. The table that is
loaded is that of the entries on these lines.
-/

import Axsh.KnownHosts
import Axsh.Lib.Table

set_option autoImplicit false

namespace Axsh

/-! ## Relevant lines -/

/-- A trimmed line that the loaders do not pass over. -/
def relevant (line : Text) : Bool := decide (line ≠ [] ∧ line.head? ≠ some '#')

theorem relevant_iff {line : Text} :
    relevant line = true ↔ ¬ (line = [] ∨ line.head? = some '#') := by
  rw [relevant, decide_eq_true_iff, not_or]

/-- The relevant lines of a file, trimmed. -/
def relevantLines (contents : Text) : List Text := ((lines contents).map trim).filter relevant

/-- The lines with their indices that a loader does not pass over are the relevant ones. -/
theorem map_filter_zipIdx (contents : Text) :
    ((lines contents).zipIdx.filter fun entry => relevant (trim entry.1)).map (fun entry =>
      trim entry.1) = relevantLines contents := by
  have hlines : (lines contents).map trim =
      (lines contents).zipIdx.map fun entry => trim entry.1 := by
    conv_lhs => rw [← List.zipIdx_map_fst 0 (lines contents)]
    rw [List.map_map]
    rfl
  rw [relevantLines, hlines, List.filter_map]
  rfl

/-- What the loaders do with a line, whose entry is made from what it parses to. -/
structure LineLoop {κ ω : Type} [DecidableEq κ] (parse : Text → Res ω) (make : ω → κ × Bytes)
    (step : Table κ Bytes → Text × ℕ → Res (Table κ Bytes)) : Prop where
  skip : ∀ table entry, relevant (trim entry.1) = false → step table entry = .ok table
  error : ∀ table entry e, relevant (trim entry.1) = true → parse (trim entry.1) = .error e →
    ∃ e', step table entry = .error e'
  fresh : ∀ table entry found, relevant (trim entry.1) = true → parse (trim entry.1) = .ok found →
    table (make found).1 = none →
    step table entry = .ok (Function.update table (make found).1 (some (make found).2))
  duplicate : ∀ table entry found, relevant (trim entry.1) = true →
    parse (trim entry.1) = .ok found → (table (make found).1).isSome →
    ∃ e', step table entry = .error e'

section Loop

variable {κ ω : Type} [DecidableEq κ] {parse : Text → Res ω} {make : ω → κ × Bytes}
  {step : Table κ Bytes → Text × ℕ → Res (Table κ Bytes)}

/-- A relevant line that does not fail adds its entry. -/
theorem LineLoop.step_eq_ok_iff (h : LineLoop parse make step) {entry : Text × ℕ}
    (hrelevant : relevant (trim entry.1) = true) (table table' : Table κ Bytes) :
    step table entry = .ok table' ↔ ∃ found, (∃ w, parse (trim entry.1) = .ok w ∧ found = make w) ∧
      table found.1 = none ∧ table' = Function.update table found.1 (some found.2) := by
  constructor
  · intro hok
    cases hparse : parse (trim entry.1) with
    | error e =>
      obtain ⟨e', he'⟩ := h.error table entry e hrelevant hparse
      cases hok.symm.trans he'
    | ok w =>
      by_cases hnew : table (make w).1 = none
      · have hstep := h.fresh table entry w hrelevant hparse hnew
        exact ⟨_, ⟨w, rfl, rfl⟩, hnew, Except.ok.inj (hok.symm.trans hstep)⟩
      · obtain ⟨e', he'⟩ :=
          h.duplicate table entry w hrelevant hparse (Option.isSome_iff_ne_none.mpr hnew)
        cases hok.symm.trans he'
  · rintro ⟨found, ⟨w, hparse, rfl⟩, hnew, rfl⟩
    exact h.fresh table entry w hrelevant hparse hnew

/-- A loader returns the table of what the relevant lines parse to, if no key comes twice, and
otherwise fails. -/
theorem LineLoop.eq_ok_iff (h : LineLoop parse make step) (contents : Text)
    (table : Table κ Bytes) :
    (lines contents).zipIdx.foldlM step Table.empty = .ok table ↔ ∃ found,
      List.Forall₂ (fun line w => parse line = .ok w) (relevantLines contents) found ∧
        ((found.map make).map Prod.fst).Nodup ∧ table = Table.ofList (found.map make) := by
  have hfilter : ((lines contents).zipIdx.filter fun entry => relevant (trim entry.1)).foldlM step
      Table.empty = (lines contents).zipIdx.foldlM step Table.empty :=
    Table.foldlM_filter h.skip _ _
  rw [← hfilter, Table.foldlM_empty_eq_ok_iff fun table entry hmem =>
    h.step_eq_ok_iff (List.mem_filter.mp hmem).2 table, ← map_filter_zipIdx]
  constructor
  · rintro ⟨entries, hentries, hkeys, rfl⟩
    obtain ⟨found, hfound, rfl⟩ := Table.forall₂_exists_iff.mp hentries
    exact ⟨found, List.forall₂_map_left_iff.mpr hfound, hkeys, rfl⟩
  · rintro ⟨found, hfound, hkeys, rfl⟩
    exact ⟨_, Table.forall₂_exists_iff.mpr ⟨found, List.forall₂_map_left_iff.mp hfound, rfl⟩, hkeys,
      rfl⟩

end Loop

/-! ## The known-hosts file -/

theorem lineLoop_loadLine (path : String) :
    LineLoop parseKnownHost (fun entry => entry) (loadLine path) where
  skip hosts entry hskip :=
    if_pos (not_not.mp (relevant_iff.not.mp (Bool.eq_false_iff.mp hskip)))
  error hosts entry e hrelevant hparse := by
    simp only [loadLine, if_neg (relevant_iff.mp hrelevant), hparse]
    cases e with
    | error kind message => exact ⟨_, rfl⟩
    | panic message => exact ⟨_, rfl⟩
  fresh hosts entry found hrelevant hparse hnew := by
    simp only [loadLine, if_neg (relevant_iff.mp hrelevant), hparse, hnew]
    rfl
  duplicate hosts entry found hrelevant hparse hdup := by
    simp only [loadLine, if_neg (relevant_iff.mp hrelevant), hparse, hdup]
    exact ⟨_, rfl⟩

/-- The loader of the known-hosts file returns the hosts and keys that the relevant lines parse
to, if no host comes twice. -/
theorem loadLines_eq_ok_iff (path : String) (contents : Text) (hosts : Hosts) :
    loadLines path contents = .ok hosts ↔ ∃ entries,
      List.Forall₂ (fun line entry => parseKnownHost line = .ok entry) (relevantLines contents)
        entries ∧ (entries.map Prod.fst).Nodup ∧ hosts = Table.ofList entries := by
  have hloop := (lineLoop_loadLine path).eq_ok_iff contents hosts
  simp only [List.map_id'] at hloop
  exact hloop

/-- What the loader has for a host stands on a line of the file. -/
theorem exists_line_of_loadLines {path : String} {contents host : Text} {hosts : Hosts}
    {key : Bytes} (h : loadLines path contents = .ok hosts) (hkey : hosts host = some key) :
    ∃ line ∈ lines contents, parseKnownHost (trim line) = .ok (host, key) := by
  obtain ⟨entries, hentries, hnodup, rfl⟩ := (loadLines_eq_ok_iff path contents hosts).mp h
  have hmem := (Table.ofList_eq_some_iff hnodup).mp hkey
  obtain ⟨trimmed, hrelevant, hparse⟩ := Table.exists_of_forall₂ hentries hmem
  obtain ⟨line, hline, rfl⟩ := List.mem_map.mp (List.mem_filter.mp hrelevant).1
  exact ⟨line, hline, hparse⟩

end Axsh

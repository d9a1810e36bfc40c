/-
# Tables that are read from a list

A table is filled from a list, one item after the other. An item stands for an entry, or the
loop fails; it also fails at a key that it has already. What such a loop returns is then the
table of all the entries, whatever their order (`foldlM_eq_ok_iff`, `ofList_perm`).
-/

import Mathlib.Data.List.Forall2
import Mathlib.Data.List.Nodup
import Mathlib.Data.List.Perm.Basic
import Mathlib.Logic.Function.Basic

set_option autoImplicit false

/-- The value under each key that has one. -/
abbrev Table (κ β : Type*) := κ → Option β

namespace Table

variable {α ε κ β : Type*}

/-- The table without entries. -/
def empty : Table κ β := fun _ => none

section Entries

variable [DecidableEq κ] {table : Table κ β} {entries : List (κ × β)} {key : κ} {value : β}

/-- Put entries into a table, one after the other. -/
def insertAll (table : Table κ β) (entries : List (κ × β)) : Table κ β :=
  entries.foldl (fun table entry => Function.update table entry.1 (some entry.2)) table

/-- The table of some entries. -/
def ofList (entries : List (κ × β)) : Table κ β := empty.insertAll entries

@[simp] theorem insertAll_nil : table.insertAll [] = table := rfl

@[simp] theorem insertAll_cons (entry : κ × β) :
    table.insertAll (entry :: entries) =
      insertAll (Function.update table entry.1 (some entry.2)) entries := rfl

/-- Under a key that no entry has, the table is as it was. -/
theorem insertAll_of_notMem (h : key ∉ entries.map Prod.fst) :
    table.insertAll entries key = table key := by
  induction entries generalizing table with
  | nil => rfl
  | cons entry entries ih =>
    rw [List.map_cons, List.mem_cons, not_or] at h
    rw [insertAll_cons, ih h.2, Function.update_of_ne h.1]

/-- Entries with different keys are what the table has under them. -/
theorem insertAll_of_mem (hkeys : (entries.map Prod.fst).Nodup) (h : (key, value) ∈ entries) :
    table.insertAll entries key = some value := by
  induction entries generalizing table with
  | nil => cases h
  | cons entry entries ih =>
    rw [List.map_cons, List.nodup_cons] at hkeys
    rcases List.mem_cons.mp h with rfl | h
    · rw [insertAll_cons, insertAll_of_notMem hkeys.1, Function.update_self]
    · exact ih hkeys.2 h

theorem ofList_eq_some_iff (hkeys : (entries.map Prod.fst).Nodup) :
    ofList entries key = some value ↔ (key, value) ∈ entries := by
  refine ⟨fun h => ?_, insertAll_of_mem hkeys⟩
  by_cases hmem : key ∈ entries.map Prod.fst
  · obtain ⟨entry, hentry, rfl⟩ := List.mem_map.mp hmem
    rw [ofList, insertAll_of_mem hkeys hentry] at h
    exact Option.some.inj h ▸ hentry
  · rw [ofList, insertAll_of_notMem hmem] at h
    cases h

/-- The order of the entries does not matter. -/
theorem ofList_perm {entries' : List (κ × β)} (hkeys : (entries.map Prod.fst).Nodup)
    (h : entries.Perm entries') : ofList entries = ofList entries' := by
  have hkeys' : (entries'.map Prod.fst).Nodup := (h.map Prod.fst).nodup_iff.mp hkeys
  ext key value
  rw [ofList_eq_some_iff hkeys, ofList_eq_some_iff hkeys', h.mem_iff]

/-- A table with one entry is made from one entry. -/
theorem eq_singleton_of_ofList (hkeys : (entries.map Prod.fst).Nodup)
    (h : ofList entries = Function.update empty key (some value)) : entries = [(key, value)] := by
  have hmem : ∀ entry, entry ∈ entries ↔ entry = (key, value) := by
    intro entry
    rw [← ofList_eq_some_iff hkeys, h]
    by_cases hkey : entry.1 = key
    · rw [hkey, Function.update_self, Prod.ext_iff, Option.some.injEq, eq_comm]
      exact (and_iff_right hkey).symm
    · rw [Function.update_of_ne hkey, Prod.ext_iff]
      exact iff_of_false (by simp [empty]) fun hentry => hkey hentry.1
  have hnodup : entries.Nodup := List.Nodup.of_map Prod.fst hkeys
  exact (List.perm_singleton.mp ((List.perm_ext_iff_of_nodup hnodup (List.nodup_singleton _)).mpr
    fun entry => by rw [hmem, List.mem_singleton]))

end Entries

/-! ## The loop -/

/-- What an item stands for has an item that stands for it. -/
theorem exists_of_forall₂ {γ : Type*} {stands : α → γ → Prop} {items : List α} {values : List γ}
    (h : List.Forall₂ stands items values) {c : γ} (hc : c ∈ values) : ∃ a ∈ items, stands a c := by
  induction h with
  | nil => cases hc
  | @cons a d items values had _ ih =>
    rcases List.mem_cons.mp hc with rfl | hc
    · exact ⟨a, List.mem_cons_self, had⟩
    · obtain ⟨b, hb, hbc⟩ := ih hc
      exact ⟨b, List.mem_cons_of_mem _ hb, hbc⟩

/-- Items that stand for entries made from values stand for the values. -/
theorem forall₂_exists_iff {γ : Type*} {stands : α → γ → Prop} {make : γ → β} {items : List α}
    {made : List β} : List.Forall₂ (fun a b => ∃ c, stands a c ∧ b = make c) items made ↔
      ∃ values, List.Forall₂ stands items values ∧ made = values.map make := by
  constructor
  · intro h
    induction h with
    | nil => exact ⟨[], .nil, rfl⟩
    | cons hhead _ ih =>
      obtain ⟨c, hc, rfl⟩ := hhead
      obtain ⟨values, hvalues, rfl⟩ := ih
      exact ⟨c :: values, .cons hc hvalues, rfl⟩
  · rintro ⟨values, hvalues, rfl⟩
    rw [List.forall₂_map_right_iff]
    exact hvalues.imp fun a c hc => ⟨c, hc, rfl⟩

/-- A loop passes over the items that it leaves alone. -/
theorem foldlM_filter {σ : Type*} {step : σ → α → Except ε σ} {keep : α → Bool}
    (hskip : ∀ s a, keep a = false → step s a = .ok s) (items : List α) (s : σ) :
    (items.filter keep).foldlM step s = items.foldlM step s := by
  induction items generalizing s with
  | nil => rfl
  | cons a items ih =>
    cases ha : keep a with
    | true =>
      rw [List.filter_cons_of_pos ha, List.foldlM_cons, List.foldlM_cons]
      exact congrArg (step s a >>= ·) (funext fun s' => ih s')
    | false =>
      rw [List.filter_cons_of_neg (by simp [ha]), List.foldlM_cons, hskip s a ha]
      exact ih s

variable [DecidableEq κ] {step : Table κ β → α → Except ε (Table κ β)} {stands : α → κ × β → Prop}

/-- A loop that fails at items without an entry and at keys it has already returns the table of
the entries of all items, if these have different keys. -/
theorem foldlM_eq_ok_iff {items : List α}
    (hstep : ∀ table, ∀ a ∈ items, ∀ table', step table a = .ok table' ↔ ∃ entry, stands a entry ∧
      table entry.1 = none ∧ table' = Function.update table entry.1 (some entry.2))
    (table table' : Table κ β) :
    items.foldlM step table = .ok table' ↔ ∃ entries, List.Forall₂ stands items entries ∧
      (entries.map Prod.fst).Nodup ∧ (∀ entry ∈ entries, table entry.1 = none) ∧
      table' = table.insertAll entries := by
  induction items generalizing table with
  | nil =>
    constructor
    · intro h
      exact ⟨[], .nil, List.nodup_nil, fun _ hmem => (List.not_mem_nil hmem).elim,
        (Except.ok.inj h).symm⟩
    · rintro ⟨entries, hitems, -, -, rfl⟩
      obtain rfl := List.forall₂_nil_left_iff.mp hitems
      rfl
  | cons a items ih =>
    have ih := ih fun table b hb => hstep table b (List.mem_cons_of_mem a hb)
    have hstep := fun table => hstep table a List.mem_cons_self
    rw [List.foldlM_cons]
    constructor
    · intro h
      cases hhead : step table a with
      | error e =>
        rw [hhead] at h
        cases h
      | ok middle =>
        rw [hhead] at h
        obtain ⟨entry, hentry, hnew, rfl⟩ := (hstep _ _).mp hhead
        obtain ⟨entries, hitems, hkeys, hfresh, rfl⟩ := (ih _).mp h
        have hother : ∀ other ∈ entries, other.1 ≠ entry.1 := by
          intro other hmem hkey
          have hnone := hfresh other hmem
          rw [hkey, Function.update_self] at hnone
          cases hnone
        refine ⟨entry :: entries, .cons hentry hitems, ?_, ?_, rfl⟩
        · rw [List.map_cons, List.nodup_cons]
          refine ⟨fun hmem => ?_, hkeys⟩
          obtain ⟨other, hmem, hkey⟩ := List.mem_map.mp hmem
          exact hother other hmem hkey
        · intro other hmem
          rcases List.mem_cons.mp hmem with rfl | hmem
          · exact hnew
          · have hnone := hfresh other hmem
            rwa [Function.update_of_ne (hother other hmem)] at hnone
    · rintro ⟨entries, hitems, hkeys, hfresh, rfl⟩
      obtain ⟨entry, rest, hentry, hrest, rfl⟩ := List.forall₂_cons_left_iff.mp hitems
      rw [List.map_cons, List.nodup_cons] at hkeys
      have hhead := (hstep table _).mpr ⟨entry, hentry, hfresh entry List.mem_cons_self, rfl⟩
      rw [hhead]
      refine (ih _).mpr ⟨rest, hrest, hkeys.2, ?_, rfl⟩
      intro other hmem
      have hkey : other.1 ≠ entry.1 := by
        intro hkey
        exact hkeys.1 (hkey ▸ List.mem_map_of_mem hmem)
      rw [Function.update_of_ne hkey]
      exact hfresh other (List.mem_cons_of_mem _ hmem)

/-- From the empty table. -/
theorem foldlM_empty_eq_ok_iff {items : List α}
    (hstep : ∀ table, ∀ a ∈ items, ∀ table', step table a = .ok table' ↔ ∃ entry, stands a entry ∧
      table entry.1 = none ∧ table' = Function.update table entry.1 (some entry.2))
    (table : Table κ β) :
    items.foldlM step empty = .ok table ↔ ∃ entries, List.Forall₂ stands items entries ∧
      (entries.map Prod.fst).Nodup ∧ table = ofList entries := by
  rw [foldlM_eq_ok_iff hstep]
  constructor
  · rintro ⟨entries, hitems, hkeys, -, rfl⟩
    exact ⟨entries, hitems, hkeys, rfl⟩
  · rintro ⟨entries, hitems, hkeys, rfl⟩
    exact ⟨entries, hitems, hkeys, fun _ _ => rfl, rfl⟩

end Table

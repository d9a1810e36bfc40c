/-
# Terminated lines

A text over an alphabet with one terminator is a sequence of lines, each ended by
the terminator, followed by a rest in which the terminator does not occur. The
decomposition exists and is unique, so every fact about the lines of a longer
text is a fact about the lines of its parts.
-/

import Mathlib.Data.List.Basic

set_option autoImplicit false

namespace Lines

variable {α : Type*} {nl : α} {text front rest : List α} {lines : List (List α)}

/-- The text of a sequence of lines, each followed by the terminator. -/
def join (nl : α) (lines : List (List α)) : List α := lines.flatMap (· ++ [nl])

@[simp] theorem join_nil : join nl ([] : List (List α)) = [] := rfl

@[simp] theorem join_cons (line : List α) (lines : List (List α)) :
    join nl (line :: lines) = line ++ nl :: join nl lines := by
  simp [join]

theorem join_append (lines more : List (List α)) :
    join nl (lines ++ more) = join nl lines ++ join nl more :=
  List.flatMap_append ..

/-- A text of terminated lines is empty or ends with the terminator. -/
theorem join_eq_nil_or (nl : α) (lines : List (List α)) :
    join nl lines = [] ∨ ∃ front, join nl lines = front ++ [nl] := by
  rcases List.eq_nil_or_concat lines with rfl | ⟨lines, line, rfl⟩
  · exact .inl rfl
  · exact .inr ⟨join nl lines ++ line, by simp [join_append]⟩

/-- No line has the terminator in it. -/
def Clean (nl : α) (lines : List (List α)) : Prop := ∀ line ∈ lines, nl ∉ line

theorem clean_nil : Clean nl ([] : List (List α)) := by simp [Clean]

theorem Clean.append {more : List (List α)} (h : Clean nl lines) (hmore : Clean nl more) :
    Clean nl (lines ++ more) := by
  intro line hline
  rcases List.mem_append.mp hline with hline | hline
  · exact h line hline
  · exact hmore line hline

section Split

variable [DecidableEq α]

/-- The first terminator of a text and what stands on its two sides. -/
theorem takeWhile_dropWhile_append (h : nl ∉ front) (rest : List α) :
    (front ++ nl :: rest).takeWhile (· ≠ nl) = front ∧
      ((front ++ nl :: rest).dropWhile (· ≠ nl)).tail = rest := by
  have hall : ∀ a ∈ front, decide (a ≠ nl) = true := by
    intro a ha
    exact decide_eq_true fun hnl => h (hnl ▸ ha)
  rw [List.takeWhile_append_of_pos hall, List.dropWhile_append_of_pos hall]
  simp

/-- Cut a text at its terminators: the terminated lines, and the rest after the
last terminator. -/
def split (nl : α) : List α → List (List α) × List α
  | [] => ([], [])
  | a :: text =>
    let tail := split nl text
    if a = nl then ([] :: tail.1, tail.2)
    else
      match tail.1 with
      | [] => ([], a :: tail.2)
      | line :: lines => ((a :: line) :: lines, tail.2)

theorem split_cons_self (text : List α) :
    split nl (nl :: text) = ([] :: (split nl text).1, (split nl text).2) := by
  simp [split]

/-- A text is its terminated lines followed by its rest. -/
theorem join_split (nl : α) (text : List α) :
    join nl (split nl text).1 ++ (split nl text).2 = text := by
  induction text with
  | nil => rfl
  | cons a text ih =>
    unfold split
    by_cases ha : a = nl
    · simp [ha, ih]
    · simp only [ha, if_false]
      cases hlines : (split nl text).1 with
      | nil => simpa [hlines] using ih
      | cons line lines => simpa [hlines] using ih

theorem clean_split (nl : α) (text : List α) : Clean nl (split nl text).1 := by
  induction text with
  | nil => exact clean_nil
  | cons a text ih =>
    unfold split
    by_cases ha : a = nl
    · simpa [ha, Clean] using ih
    · simp only [ha, if_false]
      cases hlines : (split nl text).1 with
      | nil => exact clean_nil
      | cons line lines =>
        intro l hl
        rcases List.mem_cons.mp hl with rfl | hl
        · have hline : nl ∉ line := ih line (hlines ▸ List.mem_cons_self)
          simp [Ne.symm ha, hline]
        · exact ih l (hlines ▸ List.mem_cons_of_mem _ hl)

theorem notMem_split_snd (nl : α) (text : List α) : nl ∉ (split nl text).2 := by
  induction text with
  | nil => exact List.not_mem_nil
  | cons a text ih =>
    unfold split
    by_cases ha : a = nl
    · simpa [ha] using ih
    · simp only [ha, if_false]
      cases hlines : (split nl text).1 with
      | nil => simpa [Ne.symm ha] using ih
      | cons line lines => exact ih

theorem split_of_notMem (h : nl ∉ text) : split nl text = ([], text) := by
  induction text with
  | nil => rfl
  | cons a text ih =>
    have ha : a ≠ nl := fun ha => h (by simp [ha])
    have htext : nl ∉ text := fun htext => h (List.mem_cons_of_mem a htext)
    simp [split, ih htext, ha]

/-- A line and its terminator in front of a text are its first line. -/
theorem split_line_append {line : List α} (h : nl ∉ line) (text : List α) :
    split nl (line ++ nl :: text) = (line :: (split nl text).1, (split nl text).2) := by
  induction line with
  | nil => exact split_cons_self text
  | cons a line ih =>
    have ha : a ≠ nl := fun ha => h (by simp [ha])
    have hline : nl ∉ line := fun hline => h (List.mem_cons_of_mem a hline)
    simp [split, ih hline, ha]

/-- Terminated lines in front of a text are its first lines. -/
theorem split_join_append (h : Clean nl lines) (text : List α) :
    split nl (join nl lines ++ text) = (lines ++ (split nl text).1, (split nl text).2) := by
  induction lines with
  | nil => rfl
  | cons line lines ih =>
    have hlines : Clean nl lines := fun l hl => h l (List.mem_cons_of_mem line hl)
    rw [join_cons, List.append_assoc, List.cons_append,
      split_line_append (h line List.mem_cons_self), ih hlines, List.cons_append]

/-- The decomposition of a text into terminated lines and a rest is unique. -/
theorem split_join (h : Clean nl lines) (hrest : nl ∉ rest) :
    split nl (join nl lines ++ rest) = (lines, rest) := by
  rw [split_join_append h, split_of_notMem hrest, List.append_nil]

/-- A text that ends its last line, or is empty, is all terminated lines. -/
theorem join_split_of_rest_eq_nil (h : (split nl text).2 = []) :
    join nl (split nl text).1 = text := by
  have htext := join_split nl text
  rwa [h, List.append_nil] at htext

/-- The lines of two texts in a row, when the first ends its last line. -/
theorem split_append_of_rest_eq_nil (h : (split nl front).2 = []) (text : List α) :
    split nl (front ++ text) = ((split nl front).1 ++ (split nl text).1, (split nl text).2) := by
  have hfront := join_split_of_rest_eq_nil h
  rw [← split_join_append (clean_split nl front) text, hfront]

/-- The terminator ends the last line of a text. -/
theorem split_append_self (nl : α) (text : List α) :
    split nl (text ++ [nl]) = ((split nl text).1 ++ [(split nl text).2], []) := by
  have hrest : split nl ((split nl text).2 ++ [nl]) = ([(split nl text).2], []) :=
    split_line_append (notMem_split_snd nl text) []
  have htext : text ++ [nl] =
      join nl (split nl text).1 ++ ((split nl text).2 ++ [nl]) := by
    rw [← List.append_assoc, join_split]
  rw [htext, split_join_append (clean_split nl text), hrest]

/-- The rest is empty exactly when the text is, or ends with the terminator. -/
theorem split_snd_eq_nil_iff :
    (split nl text).2 = [] ↔ text = [] ∨ text.getLast? = some nl := by
  constructor
  · intro h
    rw [← join_split_of_rest_eq_nil h]
    rcases join_eq_nil_or nl (split nl text).1 with hnil | ⟨front, hfront⟩
    · exact .inl hnil
    · exact .inr (by rw [hfront, List.getLast?_concat])
  · rintro (rfl | hlast)
    · rfl
    · obtain ⟨front, rfl⟩ := List.getLast?_eq_some_iff.mp hlast
      rw [split_append_self]

/-- The terminated lines of a front are a front of the terminated lines. -/
theorem split_fst_isPrefix (h : front <+: text) : (split nl front).1 <+: (split nl text).1 := by
  obtain ⟨back, rfl⟩ := h
  have htext : front ++ back = join nl (split nl front).1 ++ ((split nl front).2 ++ back) := by
    rw [← List.append_assoc, join_split]
  rw [htext, split_join_append (clean_split nl front)]
  exact List.prefix_append ..

/-- Lines in front of a text of lines are the first of them. -/
theorem isPrefix_of_join_append {all : List (List α)} (hlines : Clean nl lines)
    (hall : Clean nl all) (h : join nl lines ++ rest <+: join nl all) : lines <+: all := by
  have hsplit : (split nl (join nl lines ++ rest)).1 <+: (split nl (join nl all)).1 :=
    split_fst_isPrefix h
  have hwhole : split nl (join nl all) = (all, []) := by
    simpa using split_join hall (List.not_mem_nil : nl ∉ [])
  rw [split_join_append hlines, hwhole] at hsplit
  exact (List.prefix_append ..).trans hsplit

end Split

end Lines

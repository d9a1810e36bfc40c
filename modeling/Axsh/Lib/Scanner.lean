/-
# Scanning in pieces

A scanner cuts a text into tokens from the left: a token grows for as long as the state
behind it accepts the next symbol, and the symbol that is not accepted begins the next
one. What it does to a text that arrives in pieces, each of them scanned by itself, depends
on the borders only: the tokens are those of the whole text exactly if no token of a piece
goes on behind it (`map_tokens_eq_iff`).

The scanners here are those in which a symbol that goes on with a token is a token of its
own where it begins one. That a border is broken then shows in the number of tokens.
-/

import Mathlib.Data.List.Basic
import Mathlib.Data.Nat.Basic
import Mathlib.Order.Basic

set_option autoImplicit false

/-- The states behind the first symbol of a token and behind each further one. -/
structure Scanner (α σ : Type*) where
  start : α → σ
  step : σ → α → Option σ
  /-- A symbol that a state accepts begins a token that accepts nothing. -/
  solitary : ∀ {s s' a}, step s a = some s' → ∀ b, step (start a) b = none

namespace Scanner

variable {α σ : Type*} (S : Scanner α σ)

/-- The rest of the token that the state is in, and the tokens behind it. -/
def cut (s : σ) : List α → List α × List (List α)
  | [] => ([], [])
  | a :: text =>
    match S.step s a with
    | some s' => (a :: (cut s' text).1, (cut s' text).2)
    | none => ([], (a :: (cut (S.start a) text).1) :: (cut (S.start a) text).2)

/-- The tokens of a text. -/
def tokens : List α → List (List α)
  | [] => []
  | a :: text => (a :: (S.cut (S.start a) text).1) :: (S.cut (S.start a) text).2

/-- The state behind a text. -/
def stateAfter (s : σ) : List α → σ
  | [] => s
  | a :: text => stateAfter ((S.step s a).getD (S.start a)) text

/-- The last token of `front` goes on in `back`. -/
def Continues : List α → List α → Prop
  | a :: front, b :: _ => (S.step (S.stateAfter (S.start a) front) b).isSome
  | _, _ => False

instance (front back : List α) : Decidable (S.Continues front back) := by
  cases front <;> cases back <;> unfold Continues <;> infer_instance

@[simp] theorem tokens_nil : S.tokens [] = [] := rfl

theorem tokens_cons (a : α) (text : List α) :
    S.tokens (a :: text) = (a :: (S.cut (S.start a) text).1) :: (S.cut (S.start a) text).2 := rfl

variable {S} {s s' : σ} {a : α}

theorem cut_accepted (h : S.step s a = some s') (text : List α) :
    S.cut s (a :: text) = (a :: (S.cut s' text).1, (S.cut s' text).2) := by
  rw [cut, h]

/-- A symbol that is not accepted begins the next token. -/
theorem cut_rejected (h : S.step s a = none) (text : List α) :
    S.cut s (a :: text) = ([], S.tokens (a :: text)) := by
  rw [cut, h]
  rfl

/-! ## A border -/

/-- Where the state behind the front accepts nothing of the back, the tokens of the back are
added. -/
theorem cut_append (s : σ) (front : List α) {back : List α}
    (h : ∀ b ∈ back.head?, S.step (S.stateAfter s front) b = none) :
    S.cut s (front ++ back) = ((S.cut s front).1, (S.cut s front).2 ++ S.tokens back) := by
  induction front generalizing s with
  | nil =>
    cases back with
    | nil => rfl
    | cons b back => exact cut_rejected (h b rfl) back
  | cons a front ih =>
    cases hstep : S.step s a with
    | some s' =>
      have hrest := ih s' fun b hb => by simpa [stateAfter, hstep] using h b hb
      rw [List.cons_append, cut_accepted hstep, cut_accepted hstep, hrest]
    | none =>
      have hrest := ih (S.start a) fun b hb => by simpa [stateAfter, hstep] using h b hb
      rw [List.cons_append, cut_rejected hstep, cut_rejected hstep, tokens_cons, tokens_cons, hrest,
        List.cons_append]

/-- In any case the tokens that end in the front are followed by those that end in the back. -/
theorem length_cut_append (s : σ) (front back : List α) :
    (S.cut s (front ++ back)).2.length =
      (S.cut s front).2.length + (S.cut (S.stateAfter s front) back).2.length := by
  induction front generalizing s with
  | nil => exact (Nat.zero_add _).symm
  | cons a front ih =>
    cases hstep : S.step s a with
    | some s' =>
      rw [List.cons_append, cut_accepted hstep, cut_accepted hstep, ih]
      simp only [stateAfter, hstep, Option.getD_some]
    | none =>
      rw [List.cons_append, cut_rejected hstep, cut_rejected hstep, tokens_cons, tokens_cons,
        List.length_cons, List.length_cons, ih]
      simp only [stateAfter, hstep, Option.getD_none]
      exact Nat.add_right_comm _ _ _

/-- Going on with a token costs no token. -/
theorem length_cut_le (s : σ) (text : List α) :
    (S.cut s text).2.length ≤ (S.tokens text).length := by
  induction text generalizing s with
  | nil => exact Nat.zero_le _
  | cons a text ih =>
    cases hstep : S.step s a with
    | none => exact (congrArg (·.2.length) (cut_rejected hstep text)).le
    | some s' =>
      -- By itself the symbol would be a token, so the tokens behind it are the same ones.
      have hsingle : S.cut (S.start a) text = ([], S.tokens text) := by
        cases text with
        | nil => rfl
        | cons b text => exact cut_rejected (S.solitary hstep b) text
      rw [cut_accepted hstep, tokens_cons, List.length_cons, hsingle]
      exact (ih s').trans (Nat.le_succ _)

/-- Where no token goes on over a border, the tokens are those of the two sides. -/
theorem tokens_append {front back : List α} (h : ¬ S.Continues front back) :
    S.tokens (front ++ back) = S.tokens front ++ S.tokens back := by
  cases front with
  | nil => rfl
  | cons a front =>
    have hborder : ∀ b ∈ back.head?, S.step (S.stateAfter (S.start a) front) b = none := by
      intro b hb
      cases back with
      | nil => cases hb
      | cons c back =>
        obtain rfl := Option.some.inj hb
        exact Option.not_isSome_iff_eq_none.mp h
    rw [List.cons_append, tokens_cons, tokens_cons, cut_append _ _ hborder, List.cons_append]

/-- Where one does, there are fewer. -/
theorem length_tokens_append_lt {front back : List α} (h : S.Continues front back) :
    (S.tokens (front ++ back)).length < (S.tokens front).length + (S.tokens back).length := by
  cases front with
  | nil => exact h.elim
  | cons a front =>
    cases back with
    | nil => exact h.elim
    | cons b back =>
      obtain ⟨s', hstep⟩ := Option.isSome_iff_exists.mp h
      -- The symbol that goes on would be a token of its own behind the border.
      have hsingle : S.cut (S.start b) back = ([], S.tokens back) := by
        cases back with
        | nil => rfl
        | cons c back => exact cut_rejected (S.solitary hstep c) back
      have hle := length_cut_le (S := S) s' back
      rw [List.cons_append, tokens_cons, tokens_cons, tokens_cons, List.length_cons,
        length_cut_append, cut_accepted hstep, List.length_cons, List.length_cons, hsingle]
      dsimp only
      omega

theorem length_tokens_append_le (front back : List α) :
    (S.tokens (front ++ back)).length ≤ (S.tokens front).length + (S.tokens back).length := by
  by_cases h : S.Continues front back
  · exact (length_tokens_append_lt h).le
  · rw [tokens_append h, List.length_append]

/-! ## Many pieces -/

/-- No token goes on from a piece to the next symbol behind it. -/
def Unbroken (S : Scanner α σ) : List (List α) → Prop
  | [] => True
  | piece :: pieces => ¬ S.Continues piece pieces.flatten ∧ S.Unbroken pieces

instance decidableUnbroken : (pieces : List (List α)) → Decidable (S.Unbroken pieces)
  | [] => .isTrue trivial
  | piece :: pieces =>
    haveI := decidableUnbroken pieces
    inferInstanceAs (Decidable (¬ S.Continues piece pieces.flatten ∧ S.Unbroken pieces))

theorem length_tokens_flatten_le (pieces : List (List α)) :
    (S.tokens pieces.flatten).length ≤ (pieces.flatMap S.tokens).length := by
  induction pieces with
  | nil => exact le_rfl
  | cons piece pieces ih =>
    calc (S.tokens (piece ++ pieces.flatten)).length
        ≤ (S.tokens piece).length + (S.tokens pieces.flatten).length := length_tokens_append_le _ _
      _ ≤ (S.tokens piece).length + (pieces.flatMap S.tokens).length := Nat.add_le_add_left ih _
      _ = ((piece :: pieces).flatMap S.tokens).length := by
        rw [List.flatMap_cons, List.length_append]

/-- Unbroken pieces have the tokens of the whole text. -/
theorem Unbroken.flatMap_tokens {pieces : List (List α)} (h : S.Unbroken pieces) :
    pieces.flatMap S.tokens = S.tokens pieces.flatten := by
  induction pieces with
  | nil => rfl
  | cons piece pieces ih => rw [List.flatMap_cons, List.flatten_cons, ih h.2, tokens_append h.1]

/-- Broken ones have more. -/
theorem length_lt_of_not_unbroken {pieces : List (List α)} (h : ¬ S.Unbroken pieces) :
    (S.tokens pieces.flatten).length < (pieces.flatMap S.tokens).length := by
  induction pieces with
  | nil => exact absurd trivial h
  | cons piece pieces ih =>
    rw [List.flatMap_cons, List.flatten_cons, List.length_append]
    by_cases hborder : S.Continues piece pieces.flatten
    · have hlt := length_tokens_append_lt hborder
      have hle := length_tokens_flatten_le (S := S) pieces
      omega
    · have hlt := ih fun hpieces => h ⟨hborder, hpieces⟩
      rw [tokens_append hborder, List.length_append]
      omega

/-- The tokens of the pieces, whatever is made of each, are those of the whole text exactly if
no token goes on over a border. -/
theorem map_tokens_eq_iff {β : Type*} (render : List α → β) (pieces : List (List α)) :
    (pieces.flatMap fun piece => (S.tokens piece).map render) =
        (S.tokens pieces.flatten).map render ↔ S.Unbroken pieces := by
  rw [← List.map_flatMap]
  constructor
  · intro h
    by_contra hbroken
    have hlen := congrArg List.length h
    rw [List.length_map, List.length_map] at hlen
    exact absurd hlen (length_lt_of_not_unbroken hbroken).ne'
  · intro h
    rw [h.flatMap_tokens]

end Scanner

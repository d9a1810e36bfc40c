/-
# Precedence in a trace

`OnlyAfter q p` says of a trace that nothing of kind `p` is in it before something
of kind `q` is. It is the finite-trace form of "`p` only after `q`".
-/

import Mathlib.Data.List.Basic

set_option autoImplicit false

namespace Axsh

variable {α : Type} {q p : α → Prop} {first second trace : List α}

/-- Everything in the trace that satisfies `p` comes after something that
satisfies `q`. -/
def OnlyAfter (q p : α → Prop) (trace : List α) : Prop :=
  ∀ lead a rest, trace = lead ++ a :: rest → p a → ∃ b ∈ lead, q b

/-- A trace without anything of the later kind keeps the order. -/
theorem onlyAfter_of_forall_not (h : ∀ a ∈ trace, ¬ p a) : OnlyAfter q p trace := by
  intro lead a rest htrace ha
  exact absurd ha (h a (by simp [htrace]))

/-- A trace keeps the order if its first part does and has something of the
earlier kind in it. -/
theorem OnlyAfter.append (h : OnlyAfter q p first) (hq : ∃ b ∈ first, q b) :
    OnlyAfter q p (first ++ second) := by
  intro lead a rest hsplit ha
  -- The later event is in the first part, or the whole first part is before it.
  rcases List.append_eq_append_iff.mp hsplit with ⟨middle, hlead, -⟩ | ⟨middle, hfirst, hrest⟩
  · obtain ⟨b, hb, hqb⟩ := hq
    exact ⟨b, hlead ▸ List.mem_append_left middle hb, hqb⟩
  · cases middle with
    | nil =>
      obtain ⟨b, hb, hqb⟩ := hq
      rw [List.append_nil] at hfirst
      exact ⟨b, hfirst ▸ hb, hqb⟩
    | cons c middle =>
      rw [List.cons_append] at hrest
      obtain ⟨rfl, -⟩ := List.cons.inj hrest
      exact h lead a middle hfirst ha

end Axsh

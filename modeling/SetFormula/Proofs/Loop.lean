import Mathlib.Computability.StateTransition

/-!
# Loops without a bound

A loop is run by `StateTransition.eval`, which repeats a step as long as there is one and has no
result if the steps never end. That a loop ends, and with what, is shown by an invariant and a number
that falls with every step.
-/

namespace SetFormula

open StateTransition

/-- If every step keeps the invariant and makes the measure smaller, the loop ends in a state with
the invariant in which there is no further step. -/
theorem eval_of_invariant {σ : Type} (step : σ → Option σ) (Inv : σ → Prop) (measure : σ → Nat)
    (hstep : ∀ s s', Inv s → step s = some s' → Inv s' ∧ measure s' < measure s) (s : σ)
    (hs : Inv s) : ∃ s', eval step s = Part.some s' ∧ Inv s' ∧ step s' = none := by
  -- the loop itself offers no induction, so the measure of the state carries it
  induction hn : measure s using Nat.strongRecOn generalizing s with
  | ind n ih =>
    cases hnext : step s with
    | none => exact ⟨s, Part.eq_some_iff.2 (mem_eval.2 ⟨.refl, hnext⟩), hs, hnext⟩
    | some s' =>
      obtain ⟨hs', hlt⟩ := hstep s s' hs hnext
      rw [reaches_eval (.single hnext)]
      exact ih (measure s') (hn ▸ hlt) s' hs' rfl

end SetFormula

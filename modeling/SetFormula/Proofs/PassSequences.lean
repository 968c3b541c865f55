import SetFormula.Proofs.Hygiene
import SetFormula.Proofs.Letters

/-!
# Passes in any order share one supply of numbers

The passes need not run in their usual order. From a tree and the indices of its variables, run any
list of passes one after the other, each on the result of the one before and with the numbers that
it leaves taken (`Pass.runList`).

* One pass keeps all indices of the tree taken, and an index that is new in its result was not taken
  before (`Pass.run_hygienic`). For the first pass this rests on its renaming, which moves letters to
  numbers that are not taken; the others stay inside `Unfolds`.
* By induction on the list, so does every list of passes (`Pass.runList_covers`).
-/

namespace SetFormula

namespace Pass

open Elimination

variable {s : Switches} {depth : Nat}

/-- Run passes one after the other. -/
def runList (s : Switches) (depth : Nat) (ps : List Pass) (e : Expr) : Unfolding Expr :=
  ps.foldlM (fun e p => p.run s depth e) e

theorem runList_cons (p : Pass) (ps : List Pass) (e : Expr) :
    runList s depth (p :: ps) e = p.run s depth e >>= runList s depth ps := rfl

/-- The last result of passes one after the other is that of their list. -/
theorem runAll_snd (ps : List Pass) (e : Expr) (t : Taken) :
    (runAll s depth ps e t).2 = (runList s depth ps e t).map Prod.fst := by
  induction ps generalizing e t with
  | nil => rfl
  | cons p ps ih =>
    rw [runAll_cons_snd, runList_cons]
    change _ = Option.map _ ((p.run s depth e t).bind fun r => runList s depth ps r.1 r.2)
    rw [Option.map_bind]
    congr 1
    funext r
    exact ih r.1 r.2

/-! ## One pass -/

/-- What a pass does to the supply of numbers: the indices of its result are taken afterwards, and
those that are new were not taken before. -/
structure Hygienic (e : Expr) (t : Taken) (e' : Expr) (t' : Taken) : Prop where
  covers : t'.Covers e'
  notMem_of_new : ∀ i ∈ e'.occurrences, i ∉ e.occurrences → (i : Int) ∉ t

theorem hygienic_refl {e : Expr} {t : Taken} (ht : t.Covers e) : Hygienic e t e t :=
  ⟨ht, fun _ hi hnew => absurd hi hnew⟩

theorem hygienic_of_unfolds {e e' : Expr} {t t' : Taken} (h : Unfolds s e t e' t')
    (ht : t.Covers e) : Hygienic e t e' t' := by
  refine ⟨h.covers ht, fun i hi hnew => ?_⟩
  rcases h.occurrences hi with hold | ⟨-, hnot⟩
  · exact absurd hold hnew
  · exact hnot

/-- The renaming of letters makes new only numbers that are not taken. -/
theorem hygienic_rename (e : Expr) (t : Taken) :
    Hygienic e t (e.rename (freshNames t)) (Taken.ofExpr (e.rename (freshNames t))) := by
  refine ⟨Taken.covers_ofExpr _, fun i hi hnew => ?_⟩
  rw [Expr.occurrences_rename] at hi
  obtain ⟨j, hj, rfl⟩ := List.mem_map.1 hi
  rcases freshNames_cases t j with hstays | ⟨hnot, -⟩
  · rw [hstays] at hnew
    exact absurd hj hnew
  · exact hnot

theorem run_hygienic (p : Pass) {e e' : Expr} {t t' : Taken} (ht : t.Covers e)
    (h : p.run s depth e t = some (e', t')) : Hygienic e t e' t' := by
  by_cases hp : p = letters
  · subst hp
    rw [run] at h
    split at h
    · rw [letters_apply] at h
      split at h
      · cases h
        exact hygienic_refl ht
      · split at h
        · cases h
          exact hygienic_rename e t
        · cases h
    · cases h
      exact hygienic_refl ht
  · exact hygienic_of_unfolds (run_unfolds hp h) ht

/-! ## Any list of passes -/

theorem runList_covers (ps : List Pass) {e e' : Expr} {t t' : Taken} (ht : t.Covers e)
    (h : runList s depth ps e t = some (e', t')) : t'.Covers e' := by
  induction ps generalizing e t with
  | nil =>
    cases h
    exact ht
  | cons p ps ih =>
    rw [runList_cons] at h
    obtain ⟨e₁, t₁, hrun, h⟩ := Unfolding.bind_eq_some.1 h
    exact ih (p.run_hygienic ht hrun).covers h

end Pass

/-- **Passes in any order share one supply of numbers.** Run any list of passes from a tree and its
indices, and then one more pass. Before and after that pass all indices of the tree, those of bound
variables included, are taken, and an index that is new in its result was not taken when it
began. -/
theorem passes_share_numbers (s : Switches) (depth : Nat) (e : Expr) (ps : List Pass) (p : Pass)
    (e₁ e₂ : Expr) (t₁ t₂ : Taken)
    (h₁ : Pass.runList s depth ps e (Taken.ofExpr e) = some (e₁, t₁))
    (h₂ : p.run s depth e₁ t₁ = some (e₂, t₂)) :
    (∀ i ∈ e₁.occurrences, (i : Int) ∈ t₁) ∧ (∀ i ∈ e₂.occurrences, (i : Int) ∈ t₂) ∧
      ∀ i ∈ e₂.occurrences, i ∉ e₁.occurrences → (i : Int) ∉ t₁ := by
  have hcovers := Pass.runList_covers ps (Taken.covers_ofExpr e) h₁
  have hstep := p.run_hygienic hcovers h₂
  exact ⟨hcovers, hstep.covers, hstep.notMem_of_new⟩

open SetFormula.Expr

/-- The formula `x ⊆ {v₀}`. -/
def subsetOfSingleton : Expr := sub (var (indexOfLetter 'x')) (unary .singleton (var 0))

/-- The formula `v₂ ⊆ {v₁ ∈ Pot(v₀) | v₁ = v₀}`. -/
def subsetOfSeparation : Expr :=
  sub (var 2) (comprehension 1 (unary .powerSet (var 0)) (eq (var 1) (var 0)))

/-- Operators are eliminated before letters, and subset after both: `v₁` is drawn for the singleton,
`x` becomes `v₂`, and the last pass binds `v₃`. -/
theorem passes_share_numbers_subset :
    ∃ (e₂ : Expr) (t₁ t₂ : Taken),
      Pass.runList .allOn 40 [.operators, .letters] subsetOfSingleton
        (Taken.ofExpr subsetOfSingleton) = some (subsetOfSeparation, t₁) ∧
      Pass.subset.run .allOn 40 subsetOfSeparation t₁ = some (e₂, t₂) ∧
      3 ∈ e₂.occurrences ∧ (3 : Int) ∉ t₁ ∧ (3 : Int) ∈ t₂ := by
  have h₁ : Pass.runList .allOn 40 [.operators, .letters] subsetOfSingleton
      (Taken.ofExpr subsetOfSingleton) = some (subsetOfSeparation, .ofList [0, 1, 2]) := by decide
  have h₂ : Pass.subset.run .allOn 40 subsetOfSeparation (.ofList [0, 1, 2]) =
      some (all 3 (imp (mem (var 3) (var 2))
        (mem (var 3) (comprehension 1 (unary .powerSet (var 0)) (eq (var 1) (var 0))))),
        .ofList [0, 1, 2, 3]) := by decide
  obtain ⟨-, htaken, hnew⟩ := passes_share_numbers _ _ _ _ _ _ _ _ _ h₁ h₂
  exact ⟨_, _, _, h₁, h₂, by decide, hnew 3 (by decide) (by decide), htaken 3 (by decide)⟩

end SetFormula

import SetFormula.Proofs.Mirroring
import SetFormula.Proofs.Termination

/-!
# The names of variables do not matter

Rename the variables of a tree, merging no two of them, and eliminate in both trees. The letters of
the one may be numbers in the other, so different variables are renamed at the start and different
numbers are drawn later. Still the two results differ in their variables only.

* After the letters are renamed, each variable of the first tree has a counterpart in the second
  (`counterparts`).
* From there the remaining passes run in lockstep (`Pass.runList_mirrors`).
-/

namespace SetFormula

theorem Expr.rename_rename (f g : Nat → Nat) (e : Expr) :
    (e.rename f).rename g = e.rename fun i => g (f i) := by
  induction e <;> simp_all [rename]

/-- Elimination renames the letters and then runs the other passes. -/
theorem exists_run_of_eliminate {s : Switches} {depth : Nat} {e e' : Expr}
    (h : eliminate s depth e = some e') :
    ∃ e₁ t₁ t', Pass.run s depth .letters e (Taken.ofExpr e) = some (e₁, t₁) ∧
      Pass.runList s depth [.negatedRelations, .subset, .operators, .constants] e₁ t₁ =
        some (e', t') := by
  rw [eliminate, eliminationSteps, Pass.all, Pass.runAll_cons_snd, Option.bind_eq_some_iff] at h
  obtain ⟨⟨e₁, t₁⟩, hletters, h⟩ := h
  rw [Pass.runAll_snd, Option.map_eq_some_iff] at h
  obtain ⟨⟨_, t'⟩, hrest, rfl⟩ := h
  exact ⟨e₁, t₁, t', hletters, hrest⟩

namespace Elimination

/-- The variables of a tree and those of its renaming `π`, after letters are renamed in both. -/
def counterparts (s : Switches) (e : Expr) (π : Nat → Nat)
    (hπ : ∀ i ∈ e.occurrences, ∀ j ∈ e.occurrences, π i = π j → i = j) (t t' : Taken)
    (ht : t.Covers (e.rename (letterRenaming s e)))
    (ht' : t'.Covers ((e.rename π).rename (letterRenaming s (e.rename π)))) : Pairing where
  pairs i j := ∃ k ∈ e.occurrences,
    i = letterRenaming s e k ∧ j = letterRenaming s (e.rename π) (π k)
  left := t
  right := t'
  biUnique := by
    constructor
    · rintro _ _ _ ⟨k, hk, rfl, rfl⟩ ⟨l, hl, rfl, hkl⟩
      have hmem {i : Nat} (hi : i ∈ e.occurrences) : π i ∈ (e.rename π).occurrences := by
        rw [Expr.occurrences_rename]
        exact List.mem_map_of_mem hi
      rw [hπ k hk l hl (letterRenaming_injOn s _ (hmem hk) (hmem hl) hkl)]
    · rintro _ _ _ ⟨k, hk, rfl, rfl⟩ ⟨l, hl, hkl, rfl⟩
      rw [letterRenaming_injOn s e hk hl hkl]
  mem_left := by
    rintro _ _ ⟨k, hk, rfl, rfl⟩
    apply ht
    rw [Expr.occurrences_rename]
    exact List.mem_map_of_mem hk
  mem_right := by
    rintro _ _ ⟨k, hk, rfl, rfl⟩
    apply ht'
    rw [Expr.rename_rename, Expr.occurrences_rename]
    exact List.mem_map.2 ⟨k, hk, rfl⟩

end Elimination

open Elimination

/-- **The names of variables do not matter.** If `π` merges no two variables of a tree, then the
results of elimination for the tree and for its renaming by `π` differ by a renaming `ρ` that merges
no two variables of the first result. On the variables that are left over from the tree, `ρ` is `π`
up to the renaming of letters; the others were drawn. -/
theorem eliminate_ignores_names (s : Switches) (depth depth' : Nat) (e u u' : Expr) (π : Nat → Nat)
    (hπ : ∀ i ∈ e.occurrences, ∀ j ∈ e.occurrences, π i = π j → i = j)
    (h : eliminate s depth e = some u) (h' : eliminate s depth' (e.rename π) = some u') :
    ∃ ρ : Nat → Nat,
      (∀ i ∈ u.occurrences, ∀ j ∈ u.occurrences, ρ i = ρ j → i = j) ∧ u' = u.rename ρ ∧
        ∀ i ∈ e.occurrences, letterRenaming s e i ∈ u.occurrences →
          ρ (letterRenaming s e i) = letterRenaming s (e.rename π) (π i) := by
  -- both runs return the same at the larger of the two depths
  have hu := Pass.runAll_extends Pass.all (le_max_left depth depth') h
  have hu' := Pass.runAll_extends Pass.all (le_max_right depth depth') h'
  obtain ⟨e₁, t₁, t, hletters, hrest⟩ := exists_run_of_eliminate hu
  obtain ⟨e₁', t₁', t', hletters', hrest'⟩ := exists_run_of_eliminate hu'
  obtain ⟨rfl, ht₁⟩ := run_letters_eq_some hletters
  obtain ⟨rfl, ht₁'⟩ := run_letters_eq_some hletters'
  let P := counterparts s e π hπ t₁ t₁' ht₁ ht₁'
  have hmatched : P.Matched (e.rename (letterRenaming s e))
      ((e.rename π).rename (letterRenaming s (e.rename π))) := by
    rw [Expr.rename_rename]
    exact .of_rename fun i hi => ⟨i, hi, rfl, rfl⟩
  obtain ⟨P', hle, -, v, hv, huv⟩ := Pass.runList_mirrors (by decide) P _ _ hmatched u t hrest
  obtain rfl : v = u' := by
    rw [show P.right = t₁' from rfl, hrest'] at hv
    cases hv
    rfl
  obtain ⟨ρ, hinj, hρ, hfollows⟩ := huv.exists_rename P'.biUnique
  refine ⟨ρ, hinj, hρ, fun i hi hu => ?_⟩
  exact (hfollows _ hu _ (hle _ _ ⟨i, hi, rfl, rfl⟩)).symm

open SetFormula.Expr

/-- The formula `{v₁ ∈ v₇ | v₁ ⊆ x} = v₁`, in which `v₁` is both bound and free. -/
def partsOfLetter : Expr :=
  eq (comprehension 1 (var 7) (sub (var 1) (var (indexOfLetter 'x')))) (var 1)

/-- The renaming of `v₁` to `y`, of `v₇` to `v₂` and of all else to `v₀`. -/
def exchangeNames (i : Nat) : Nat := if i = 1 then indexOfLetter 'y' else if i = 7 then 2 else 0

/-- The formula `∀y (y ∈ b ↔ (y ∈ d ∧ ∀z (z ∈ y → z ∈ a)))`. -/
def partsIn (a b d y z : Nat) : Expr :=
  all y (iff (mem (var y) (var b)) (conj (mem (var y) (var d))
    (all z (imp (mem (var z) (var y)) (mem (var z) (var a))))))

/-- In `{v₁ ∈ v₇ | v₁ ⊆ x} = v₁` the letter becomes `v₀`, and `v₂` and `v₃` are drawn. In the
renamed formula `{y ∈ v₂ | y ⊆ v₀} = y` another letter becomes `v₁`, and `v₃` and `v₄` are drawn. -/
theorem eliminate_ignores_names_separation :
    eliminate .allOn 40 partsOfLetter = some (partsIn 0 1 7 3 2) ∧
      eliminate .allOn 40 (partsOfLetter.rename exchangeNames) = some (partsIn 0 1 2 4 3) ∧
      ∃ ρ : Nat → Nat, partsIn 0 1 2 4 3 = (partsIn 0 1 7 3 2).rename ρ ∧
        ρ 0 = 0 ∧ ρ 1 = 1 ∧ ρ 7 = 2 := by
  have h : eliminate .allOn 40 partsOfLetter = some (partsIn 0 1 7 3 2) := by decide
  have h' : eliminate .allOn 40 (partsOfLetter.rename exchangeNames) =
      some (partsIn 0 1 2 4 3) := by decide
  obtain ⟨ρ, -, hρ, hkept⟩ := eliminate_ignores_names _ _ _ _ _ _ exchangeNames (by decide) h h'
  exact ⟨h, h', ρ, hρ, hkept (indexOfLetter 'x') (by decide) (by decide),
    hkept 1 (by decide) (by decide), hkept 7 (by decide) (by decide)⟩

end SetFormula

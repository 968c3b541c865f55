import SetFormula.Proofs.FreeVariables
import SetFormula.Proofs.Meaning

/-!
# Renaming to a variable that does not occur

Replacing the free occurrences of `x` by a variable `y` that does not occur captures nothing: `y`
takes the place of `x` among the free variables, the tree with `y` says of `y` what the tree says of
`x`, and replacing `y` by `x` gives the tree back (`substituteFree_fresh`).

A binder of `x` leaves what it binds alone on the way there, and no binder of `y` is met on the way
back. So what was left alone has no `y` in it (`renameFree_of_notMem`), and what was renamed is
renamed back (`renameFree_renameFree`).
-/

namespace SetFormula

universe u

namespace Expr

/-! ## There and back -/

/-- A variable that does not occur has no free occurrences. -/
theorem renameFree_of_notMem {y : Nat} {e : Expr} (hy : y ∉ e.occurrences) (x : Nat) :
    e.renameFree y x = e := by
  induction e with
  | var i =>
    rw [occurrences_var, List.mem_singleton] at hy
    rw [renameFree, if_neg (Ne.symm hy)]
  | constant c => rfl
  | relation r a b iha ihb | connective c a b iha ihb | binary k a b iha ihb =>
    simp only [occurrences_relation, occurrences_connective, occurrences_binary, List.mem_append,
      not_or] at hy
    rw [renameFree, iha hy.1, ihb hy.2]
  | negation a ih | unary k a ih =>
    simp only [occurrences_negation, occurrences_unary] at hy
    rw [renameFree, ih hy]
  | quantified q z a ih =>
    simp only [occurrences_quantified, List.mem_cons, not_or] at hy
    rw [renameFree, ih hy.2, ite_self]
  | comprehension z d p ihd ihp =>
    simp only [occurrences_comprehension, List.mem_cons, List.mem_append, not_or] at hy
    rw [renameFree, ihd hy.2.1, ihp hy.2.2, ite_self]

/-- Renaming the free occurrences of `x` to a new variable `y` and those of `y` to `x` changes
nothing. -/
theorem renameFree_renameFree {x y : Nat} {e : Expr} (hy : y ∉ e.occurrences) :
    (e.renameFree x y).renameFree y x = e := by
  -- what stands below a binder `z` is renamed back if it was renamed, and has no `y` otherwise
  have hbinder {z : Nat} {a : Expr} (hz : y ≠ z) (ha : y ∉ a.occurrences)
      (ih : (a.renameFree x y).renameFree y x = a) :
      (if z = y then if z = x then a else a.renameFree x y
        else (if z = x then a else a.renameFree x y).renameFree y x) = a := by
    rw [if_neg hz.symm]
    split
    · exact renameFree_of_notMem ha x
    · exact ih
  induction e with
  | var i =>
    rw [occurrences_var, List.mem_singleton] at hy
    rw [renameFree]
    split
    · rename_i hi
      rw [renameFree, if_pos rfl, hi]
    · rw [renameFree, if_neg (Ne.symm hy)]
  | constant c => rfl
  | relation r a b iha ihb | connective c a b iha ihb | binary k a b iha ihb =>
    simp only [occurrences_relation, occurrences_connective, occurrences_binary, List.mem_append,
      not_or] at hy
    rw [renameFree, renameFree, iha hy.1, ihb hy.2]
  | negation a ih | unary k a ih =>
    simp only [occurrences_negation, occurrences_unary] at hy
    rw [renameFree, renameFree, ih hy]
  | quantified q z a ih =>
    simp only [occurrences_quantified, List.mem_cons, not_or] at hy
    rw [renameFree, renameFree, hbinder hy.1 hy.2 (ih hy.2)]
  | comprehension z d p ihd ihp =>
    simp only [occurrences_comprehension, List.mem_cons, List.mem_append, not_or] at hy
    rw [renameFree, renameFree, ihd hy.2.1, hbinder hy.1 hy.2.2 (ihp hy.2.2)]

/-! ## By numbers of any kind -/

theorem checkIndex_of_le {i : Nat} (h : i ≤ maxIndex) : checkIndex i = .ok i := by
  rw [checkIndex, if_pos ⟨Int.natCast_nonneg i, by omega⟩, Int.toNat_natCast]

theorem substituteFree_natCast (x : Nat) {y : Nat} (h : y ≤ maxIndex) (e : Expr) :
    e.substituteFree x y = .ok (e.renameFree x y) := by
  rw [substituteFree, checkIndex_of_le h]
  rfl

/-- A number below zero is no variable, so nothing is replaced. -/
theorem substituteFree_negSucc (n : Nat) {y : Nat} (h : y ≤ maxIndex) (e : Expr) :
    e.substituteFree (.negSucc n) y = .ok e := by
  rw [substituteFree, checkIndex_of_le h]
  rfl

/-- **Replacing a variable by a new one captures nothing.** If the variable `y` does not occur in
the tree, the free occurrences of `x`, whatever number that is, are replaced by `y` such that `y`
takes the place of `x` among the free variables and `x` is not free any more; replacing `y` by `x`,
if that is an index, gives the tree back; and in every interpretation and under every assignment,
the result denotes and says what the tree does with the value of `y` for `x`. -/
theorem substituteFree_fresh (x : Int) (y : Nat) (e : Expr) (hindex : y ≤ maxIndex)
    (hy : y ∉ e.occurrences) :
    ∃ e', e.substituteFree x y = .ok e' ∧
      (e'.freeVariables = e.freeVariables.image fun i : Nat => if (i : Int) = x then y else i) ∧
      (∀ i ∈ e'.freeVariables, (i : Int) ≠ x) ∧
      (0 ≤ x → x ≤ maxIndex → e'.substituteFree y x = .ok e) ∧
      ∀ (M : Type u) (I : Interpretation M) (ρ : Nat → M),
        I.meaning ρ e' = I.meaning (fun i => if (i : Int) = x then ρ y else ρ i) e := by
  cases x with
  | ofNat x =>
    rw [Int.ofNat_eq_natCast]
    have hfree : (e.renameFree x y).freeVariables =
        e.freeVariables.image fun i : Nat => if (i : Int) = x then y else i := by
      simp only [Nat.cast_inj]
      exact freeVariables_renameFree hy
    refine ⟨_, substituteFree_natCast x hindex e, hfree, ?_, ?_, ?_⟩
    · have hyfree := notMem_freeVariables hy
      simp only [hfree, Finset.mem_image]
      grind
    · intro _ hx
      rw [substituteFree_natCast y (by exact_mod_cast hx), renameFree_renameFree hy]
    · intro M I ρ
      rw [I.meaning_renameFree hy]
      congr 1
      funext i
      simp only [Function.update_apply, Nat.cast_inj]
  | negSucc n =>
    have hne (i : Nat) : (i : Int) ≠ Int.negSucc n := by omega
    refine ⟨e, substituteFree_negSucc n hindex e, ?_, fun i _ => hne i, ?_, ?_⟩
    · simp only [hne, if_false, Finset.image_id']
    · intro hx
      exact absurd hx (not_le.2 (Int.negSucc_lt_zero n))
    · intro M I ρ
      simp only [hne, if_false]

/-- The formula `(v₁ = {v₀ ∈ v₀ | v₀ ∈ v₁} ∧ ∀v₀ (v₀ ∈ v₁))`, in which `v₀` is free in the domain of
the comprehension only. -/
def boundTwice : Expr :=
  conj (eq (var 1) (comprehension 0 (var 0) (mem (var 0) (var 1)))) (all 0 (mem (var 0) (var 1)))

/-- The domain of the comprehension is renamed to `v₂`; its predicate, the quantified formula and
the binders stay. -/
theorem substituteFree_fresh_boundTwice :
    2 ≤ maxIndex ∧ 2 ∉ boundTwice.occurrences ∧
    ∃ e', boundTwice.substituteFree 0 2 = .ok e' ∧
      e' = conj (eq (var 1) (comprehension 0 (var 2) (mem (var 0) (var 1))))
        (all 0 (mem (var 0) (var 1))) ∧
      e'.freeVariables = {1, 2} ∧ e'.substituteFree 2 0 = .ok boundTwice ∧
      ∀ (M : Type) (I : Interpretation M) (ρ : Nat → M),
        I.meaning ρ e' = I.meaning (fun i => if (i : Int) = 0 then ρ 2 else ρ i) boundTwice := by
  have hindex : 2 ≤ maxIndex := by decide
  have hy : 2 ∉ boundTwice.occurrences := by decide
  obtain ⟨e', he', hfree, -, hback, hvalue⟩ := substituteFree_fresh 0 2 boundTwice hindex hy
  refine ⟨hindex, hy, e', he', ?_, ?_, hback le_rfl (by decide), hvalue⟩
  · cases he'
    rfl
  · rw [hfree]
    decide

end Expr

end SetFormula

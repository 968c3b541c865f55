import SetFormula.Proofs.Unfolds

/-!
# Well-sorted trees

A term is well sorted if its operators have terms as operands and its comprehensions have terms as
domains and formulas as predicates. A formula is well sorted if its relations have terms as operands
and its negations, connectives and quantifiers have formulas below them. Both are decided by
recursion (`isWellSortedTerm`, `isWellSortedFormula`).

Every rule of elimination keeps both sorts (`Unfolds.keepsSort`), and so does renaming.
-/

namespace SetFormula

namespace Expr

mutual

/-- Whether the tree is a set term and well sorted throughout. -/
def isWellSortedTerm : Expr → Bool
  | var _ | constant _ => true
  | unary _ a => a.isWellSortedTerm
  | binary _ a b => a.isWellSortedTerm && b.isWellSortedTerm
  | comprehension _ d p => d.isWellSortedTerm && p.isWellSortedFormula
  | relation _ _ _ | negation _ | connective _ _ _ | quantified _ _ _ => false

/-- Whether the tree is a formula and well sorted throughout. -/
def isWellSortedFormula : Expr → Bool
  | relation _ a b => a.isWellSortedTerm && b.isWellSortedTerm
  | negation a => a.isWellSortedFormula
  | connective _ a b => a.isWellSortedFormula && b.isWellSortedFormula
  | quantified _ _ a => a.isWellSortedFormula
  | var _ | constant _ | unary _ _ | binary _ _ _ | comprehension _ _ _ => false

end

/-! ## Trees of either sort -/

section EitherSort

variable (a b : Expr)

theorem isWellSorted_relation (r : Relation) :
    ((relation r a b).isWellSortedTerm ∨ (relation r a b).isWellSortedFormula) ↔
      a.isWellSortedTerm ∧ b.isWellSortedTerm := by
  change (false ∨ (a.isWellSortedTerm && b.isWellSortedTerm)) ↔ _
  simp

theorem isWellSorted_negation :
    ((negation a).isWellSortedTerm ∨ (negation a).isWellSortedFormula) ↔
      a.isWellSortedFormula := by
  change (false ∨ a.isWellSortedFormula) ↔ _
  simp

theorem isWellSorted_connective (c : Connective) :
    ((connective c a b).isWellSortedTerm ∨ (connective c a b).isWellSortedFormula) ↔
      a.isWellSortedFormula ∧ b.isWellSortedFormula := by
  change (false ∨ (a.isWellSortedFormula && b.isWellSortedFormula)) ↔ _
  simp

theorem isWellSorted_quantified (q : Quantifier) (x : Nat) :
    ((quantified q x a).isWellSortedTerm ∨ (quantified q x a).isWellSortedFormula) ↔
      a.isWellSortedFormula := by
  change (false ∨ a.isWellSortedFormula) ↔ _
  simp

theorem isWellSorted_unary (k : UnaryOperator) :
    ((unary k a).isWellSortedTerm ∨ (unary k a).isWellSortedFormula) ↔ a.isWellSortedTerm := by
  change (a.isWellSortedTerm ∨ false) ↔ _
  simp

theorem isWellSorted_binary (k : BinaryOperator) :
    ((binary k a b).isWellSortedTerm ∨ (binary k a b).isWellSortedFormula) ↔
      a.isWellSortedTerm ∧ b.isWellSortedTerm := by
  change ((a.isWellSortedTerm && b.isWellSortedTerm) ∨ false) ↔ _
  simp

theorem isWellSorted_comprehension (x : Nat) :
    ((comprehension x a b).isWellSortedTerm ∨ (comprehension x a b).isWellSortedFormula) ↔
      a.isWellSortedTerm ∧ b.isWellSortedFormula := by
  change ((a.isWellSortedTerm && b.isWellSortedFormula) ∨ false) ↔ _
  simp

end EitherSort

/-! ## The sort at the root -/

theorem isFormula_eq_not_isSet (e : Expr) : e.isFormula = !e.isSet := by cases e <;> rfl

theorem isSet_of_isWellSortedTerm {e : Expr} (h : e.isWellSortedTerm) : e.isSet := by
  cases e <;> simp_all [isWellSortedTerm, isSet]

theorem isFormula_of_isWellSortedFormula {e : Expr} (h : e.isWellSortedFormula) :
    e.isFormula := by
  cases e <;> simp_all [isWellSortedFormula, isFormula]

@[simp] theorem isWellSorted_rename (f : Nat → Nat) (e : Expr) :
    (e.rename f).isWellSortedTerm = e.isWellSortedTerm ∧
      (e.rename f).isWellSortedFormula = e.isWellSortedFormula := by
  induction e <;> simp_all [rename, isWellSortedTerm, isWellSortedFormula]

@[simp] theorem isWellSorted_renameFree (x y : Nat) (e : Expr) :
    (e.renameFree x y).isWellSortedTerm = e.isWellSortedTerm ∧
      (e.renameFree x y).isWellSortedFormula = e.isWellSortedFormula := by
  induction e with
  | var i =>
    rw [renameFree]
    split <;> simp [isWellSortedTerm, isWellSortedFormula]
  | quantified q z a ih =>
    rw [renameFree]
    split <;> simp_all [isWellSortedTerm, isWellSortedFormula]
  | comprehension z d p ihd ihp =>
    rw [renameFree]
    split <;> simp_all [isWellSortedTerm, isWellSortedFormula]
  | _ => simp_all [renameFree, isWellSortedTerm, isWellSortedFormula]

end Expr

namespace Elimination

open SetFormula.Expr

/-- The second tree is well sorted if the first one is, and is of the same sort. -/
structure KeepsSort (e e' : Expr) : Prop where
  term : e.isWellSortedTerm → e'.isWellSortedTerm
  formula : e.isWellSortedFormula → e'.isWellSortedFormula

variable {s : Switches} {e e' : Expr} {t t' : Taken}

theorem Rewrites.keepsSort (h : Rewrites s e e') : KeepsSort e e' := by
  constructor <;> cases h <;> simp_all [isWellSortedTerm, isWellSortedFormula]

theorem Introduces.keepsSort {y : Nat} (h : Introduces s y e e') : KeepsSort e e' := by
  constructor <;> cases h <;> simp_all [isWellSortedTerm, isWellSortedFormula]

/-- Unfolding keeps well-sorted terms and formulas. -/
theorem Unfolds.keepsSort (h : Unfolds s e t e' t') : KeepsSort e e' := by
  induction h with
  | refl e t => exact ⟨id, id⟩
  | trans _ _ ih₁ ih₂ => exact ⟨ih₂.term ∘ ih₁.term, ih₂.formula ∘ ih₁.formula⟩
  | rewrite h t => exact h.keepsSort
  | introduce h => exact h.keepsSort
  | relation r _ _ iha ihb =>
    refine ⟨nofun, fun h => ?_⟩
    simp only [isWellSortedFormula, Bool.and_eq_true] at h ⊢
    exact ⟨iha.term h.1, ihb.term h.2⟩
  | connective c _ _ iha ihb =>
    refine ⟨nofun, fun h => ?_⟩
    simp only [isWellSortedFormula, Bool.and_eq_true] at h ⊢
    exact ⟨iha.formula h.1, ihb.formula h.2⟩
  | negation _ ih | quantified q x _ ih => exact ⟨nofun, ih.formula⟩
  | unary k _ ih => exact ⟨ih.term, nofun⟩
  | binary k _ _ iha ihb =>
    refine ⟨fun h => ?_, nofun⟩
    simp only [isWellSortedTerm, Bool.and_eq_true] at h ⊢
    exact ⟨iha.term h.1, ihb.term h.2⟩
  | comprehension x _ _ ihd ihp =>
    refine ⟨fun h => ?_, nofun⟩
    simp only [isWellSortedTerm, Bool.and_eq_true] at h ⊢
    exact ⟨ihd.term h.1, ihp.formula h.2⟩

end Elimination

end SetFormula

import SetFormula.Proofs.Unfolds

/-!
# Unfolding draws new variables

Taken numbers stay taken (`Unfolds.mem_of_mem`), and an index that occurs after an unfolding either
occurred before or was drawn on the way (`Unfolds.occurrences`). So if all indices of a tree are
taken, that stays so (`Unfolds.covers`), and every variable that a rule binds is new to the tree. No
rule introduces the constant `ω` (`Unfolds.omega_mem`).
-/

namespace SetFormula

theorem Expr.mem_of_mem_occurrences_renameFree {x y i : Nat} {e : Expr}
    (h : i ∈ (e.renameFree x y).occurrences) : i ∈ e.occurrences ∨ i = y := by
  induction e with
  | var j =>
    simp only [renameFree] at h
    split at h
    · exact .inr (List.mem_singleton.1 h)
    · exact .inl h
  | constant c => exact .inl h
  | quantified q z a ih =>
    simp only [renameFree, occurrences_quantified, List.mem_cons] at h ⊢
    split at h <;> grind
  | comprehension z d p ihd ihp =>
    simp only [renameFree, occurrences_comprehension, List.mem_cons, List.mem_append] at h ⊢
    split at h <;> grind
  | negation a ih | unary k a ih =>
    simp only [renameFree, occurrences_negation, occurrences_unary] at h ⊢
    exact ih h
  | relation r a b iha ihb | connective c a b iha ihb | binary k a b iha ihb =>
    simp only [renameFree, occurrences_relation, occurrences_connective, occurrences_binary,
      List.mem_append] at h ⊢
    grind

theorem Expr.omega_mem_walk_rename {f : Nat → Nat} {e : Expr}
    (h : .constant .omega ∈ (e.rename f).walk) : .constant .omega ∈ e.walk := by
  rw [walk_eq_preorder] at h ⊢
  induction e with
  | constant c => exact h
  | _ => simp_all [rename, preorder] <;> grind

theorem Expr.preorder_renameFree_omega {x y : Nat} {e : Expr}
    (h : .constant .omega ∈ (e.renameFree x y).preorder) : .constant .omega ∈ e.preorder := by
  induction e with
  | var j =>
    simp only [renameFree] at h
    split at h <;> simp [preorder] at h
  | quantified q z a ih =>
    simp only [renameFree, preorder] at h ⊢
    split at h <;> simp_all
  | comprehension z d p ihd ihp =>
    simp only [renameFree, preorder] at h ⊢
    split at h <;> simp_all <;> grind
  | constant c => exact h
  | _ => simp_all [renameFree, preorder] <;> grind

namespace Elimination

open SetFormula.Expr

variable {s : Switches} {e e' : Expr} {t t' : Taken}

/-! ## Occurrences -/

theorem Rewrites.occurrences (h : Rewrites s e e') {i : Nat} (hi : i ∈ e'.occurrences) :
    i ∈ e.occurrences := by
  cases h <;> simp at hi ⊢ <;> grind

theorem Introduces.occurrences {y : Nat} (h : Introduces s y e e') {i : Nat}
    (hi : i ∈ e'.occurrences) : i ∈ e.occurrences ∨ i = y := by
  cases h with
  | comprehension on x d p b =>
    have hp : i ∈ (p.renameFree x y).occurrences → i ∈ p.occurrences ∨ i = y :=
      mem_of_mem_occurrences_renameFree
    simp at hi ⊢
    grind
  | _ =>
    simp at hi ⊢
    grind

theorem Unfolds.mem_of_mem (h : Unfolds s e t e' t') {a : Int} (ha : a ∈ t) : a ∈ t' := by
  induction h with
  | refl e t => exact ha
  | trans _ _ ih₁ ih₂ => exact ih₂ (ih₁ ha)
  | rewrite _ t => exact ha
  | introduce _ => exact Taken.mem_fresh.2 (.inr ha)
  | negation _ ih | quantified q x _ ih | unary k _ ih => exact ih ha
  | relation r _ _ iha ihb | connective c _ _ iha ihb | binary k _ _ iha ihb
  | comprehension x _ _ iha ihb => exact ihb (iha ha)

/-- An index that occurs after an unfolding occurred before or was drawn on the way. -/
theorem Unfolds.occurrences (h : Unfolds s e t e' t') {i : Nat} (hi : i ∈ e'.occurrences) :
    i ∈ e.occurrences ∨ ((i : Int) ∈ t' ∧ (i : Int) ∉ t) := by
  induction h with
  | refl e t => exact .inl hi
  | trans h₁ h₂ ih₁ ih₂ =>
    rcases ih₂ hi with hi | ⟨hi, hn⟩
    · exact (ih₁ hi).imp_right fun hi => ⟨h₂.mem_of_mem hi.1, hi.2⟩
    · exact .inr ⟨hi, fun ht => hn (h₁.mem_of_mem ht)⟩
  | rewrite h t => exact .inl (h.occurrences hi)
  | introduce h =>
    rename_i t
    refine (h.occurrences hi).imp_right fun hy => ?_
    subst hy
    exact ⟨Taken.mem_fresh.2 (.inl rfl), t.fresh_notMem⟩
  | negation _ ih | unary k _ ih =>
    simp only [occurrences_negation, occurrences_unary] at hi ⊢
    exact ih hi
  | quantified q x _ ih =>
    simp only [occurrences_quantified, List.mem_cons] at hi ⊢
    rcases hi with hi | hi
    · exact .inl (.inl hi)
    · exact (ih hi).imp_left .inr
  | relation r ha hb iha ihb | connective c ha hb iha ihb | binary k ha hb iha ihb =>
    simp only [occurrences_relation, occurrences_connective, occurrences_binary,
      List.mem_append] at hi ⊢
    rcases hi with hi | hi
    · exact (iha hi).imp .inl fun hi => ⟨hb.mem_of_mem hi.1, hi.2⟩
    · exact (ihb hi).imp .inr fun hi => ⟨hi.1, fun ht => hi.2 (ha.mem_of_mem ht)⟩
  | comprehension x ha hb iha ihb =>
    simp only [occurrences_comprehension, List.mem_cons, List.mem_append] at hi ⊢
    rcases hi with hi | hi | hi
    · exact .inl (.inl hi)
    · exact (iha hi).imp (.inr ∘ .inl) fun hi => ⟨hb.mem_of_mem hi.1, hi.2⟩
    · exact (ihb hi).imp (.inr ∘ .inr) fun hi => ⟨hi.1, fun ht => hi.2 (ha.mem_of_mem ht)⟩

theorem Unfolds.covers (h : Unfolds s e t e' t') (ht : t.Covers e) : t'.Covers e' := by
  intro i hi
  rcases h.occurrences hi with hi | hi
  · exact h.mem_of_mem (ht i hi)
  · exact hi.1

/-! ## The constant `ω` -/

/-- No rule introduces the constant `ω`. -/
theorem Unfolds.omega_mem (h : Unfolds s e t e' t') (hω : .constant .omega ∈ e'.walk) :
    .constant .omega ∈ e.walk := by
  rw [walk_eq_preorder] at hω ⊢
  induction h with
  | refl e t => exact hω
  | trans _ _ ih₁ ih₂ => exact ih₁ (ih₂ hω)
  | rewrite h t => cases h <;> simp [preorder] at hω ⊢ <;> grind
  | introduce h =>
    rename_i t
    cases h with
    | comprehension on x d p b =>
      have hp : .constant .omega ∈ (p.renameFree x t.fresh.1).preorder →
          .constant .omega ∈ p.preorder := preorder_renameFree_omega
      simp [preorder] at hω ⊢
      grind
    | _ => simp [preorder] at hω ⊢ <;> grind
  | _ => simp_all [preorder] <;> grind

end Elimination

end SetFormula

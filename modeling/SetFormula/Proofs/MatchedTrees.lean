import SetFormula.Proofs.Letters

/-!
# Trees that differ in their variables only

`Expr.Matched R e e'` says that the two trees have the same shape and that the indices at
corresponding places are related by `R`. If `R` relates each index to at most one index, in both
directions, then

* corresponding trees contain corresponding indices (`Matched.mem_occurrences_iff`);
* renaming the free occurrences of corresponding variables to corresponding ones keeps the trees
  matched (`Matched.renameFree`);
* the second tree is the first one with its variables renamed, no two of them to the same
  (`Matched.exists_rename`).
-/

namespace SetFormula.Expr

/-- The trees have the same shape, and corresponding indices are related. -/
inductive Matched (R : Nat → Nat → Prop) : Expr → Expr → Prop
  | var {i i' : Nat} (hi : R i i') : Matched R (var i) (var i')
  | constant (c : Constant) : Matched R (constant c) (constant c)
  | relation (r : Relation) {a b a' b' : Expr} (ha : Matched R a a') (hb : Matched R b b') :
    Matched R (relation r a b) (relation r a' b')
  | negation {a a' : Expr} (ha : Matched R a a') : Matched R (negation a) (negation a')
  | connective (c : Connective) {a b a' b' : Expr} (ha : Matched R a a') (hb : Matched R b b') :
    Matched R (connective c a b) (connective c a' b')
  | quantified (q : Quantifier) {x x' : Nat} {a a' : Expr} (hx : R x x') (ha : Matched R a a') :
    Matched R (quantified q x a) (quantified q x' a')
  | unary (k : UnaryOperator) {a a' : Expr} (ha : Matched R a a') :
    Matched R (unary k a) (unary k a')
  | binary (k : BinaryOperator) {a b a' b' : Expr} (ha : Matched R a a') (hb : Matched R b b') :
    Matched R (binary k a b) (binary k a' b')
  | comprehension {x x' : Nat} {d p d' p' : Expr} (hx : R x x') (hd : Matched R d d')
      (hp : Matched R p p') : Matched R (comprehension x d p) (comprehension x' d' p')

namespace Matched

variable {R : Nat → Nat → Prop} {e e' : Expr}

theorem mono {S : Nat → Nat → Prop} (hRS : ∀ i j, R i j → S i j) (h : Matched R e e') :
    Matched S e e' := by
  induction h with
  | var hi => exact .var (hRS _ _ hi)
  | constant c => exact .constant c
  | relation r _ _ iha ihb => exact .relation r iha ihb
  | negation _ ih => exact .negation ih
  | connective c _ _ iha ihb => exact .connective c iha ihb
  | quantified q hx _ ih => exact .quantified q (hRS _ _ hx) ih
  | unary k _ ih => exact .unary k ih
  | binary k _ _ iha ihb => exact .binary k iha ihb
  | comprehension hx _ _ ihd ihp => exact .comprehension (hRS _ _ hx) ihd ihp

theorem height_eq (h : Matched R e e') : e'.height = e.height := by
  induction h <;> simp_all [height]

/-- Corresponding indices come in the same order. -/
theorem occurrences (h : Matched R e e') : List.Forall₂ R e.occurrences e'.occurrences := by
  induction h with
  | var hi => exact .cons hi .nil
  | constant c => exact .nil
  | negation _ ih | unary k _ ih =>
    rw [occurrences_eq_append, occurrences_eq_append]
    simpa [index?, children] using ih
  | relation r _ _ iha ihb | connective c _ _ iha ihb | binary k _ _ iha ihb =>
    simp only [occurrences_relation, occurrences_connective, occurrences_binary]
    exact List.rel_append iha ihb
  | quantified q hx _ ih =>
    simp only [occurrences_quantified]
    exact .cons hx ih
  | comprehension hx _ _ ihd ihp =>
    simp only [occurrences_comprehension]
    exact .cons hx (List.rel_append ihd ihp)

/-- Two renamings of a tree are matched if they agree up to the relation on its indices. -/
theorem of_rename {f g : Nat → Nat} (h : ∀ i ∈ e.occurrences, R (f i) (g i)) :
    Matched R (e.rename f) (e.rename g) := by
  induction e with
  | var i => exact .var (h i (by simp))
  | constant c => exact .constant c
  | negation a ih => exact .negation (ih (by simpa using h))
  | unary k a ih => exact .unary k (ih (by simpa using h))
  | relation r a b iha ihb =>
    rw [occurrences_relation, List.forall_mem_append] at h
    exact .relation r (iha h.1) (ihb h.2)
  | connective c a b iha ihb =>
    rw [occurrences_connective, List.forall_mem_append] at h
    exact .connective c (iha h.1) (ihb h.2)
  | binary k a b iha ihb =>
    rw [occurrences_binary, List.forall_mem_append] at h
    exact .binary k (iha h.1) (ihb h.2)
  | quantified q x a ih =>
    rw [occurrences_quantified, List.forall_mem_cons] at h
    exact .quantified q h.1 (ih h.2)
  | comprehension x d p ihd ihp =>
    rw [occurrences_comprehension, List.forall_mem_cons, List.forall_mem_append] at h
    exact .comprehension h.1 (ihd h.2.1) (ihp h.2.2)

/-- The second tree is the first one renamed, if the renaming follows the relation. -/
theorem eq_rename {f : Nat → Nat} (h : Matched R e e')
    (hf : ∀ i ∈ e.occurrences, ∀ j, R i j → j = f i) : e' = e.rename f := by
  induction h with
  | var hi => rw [rename, hf _ (by simp) _ hi]
  | constant c => rfl
  | negation _ ih | unary k _ ih =>
    simp only [occurrences_negation, occurrences_unary] at hf
    rw [rename, ih hf]
  | relation r _ _ iha ihb | connective c _ _ iha ihb | binary k _ _ iha ihb =>
    simp only [occurrences_relation, occurrences_connective, occurrences_binary,
      List.forall_mem_append] at hf
    rw [rename, iha hf.1, ihb hf.2]
  | quantified q hx _ ih =>
    simp only [occurrences_quantified, List.forall_mem_cons] at hf
    rw [rename, hf.1 _ hx, ih hf.2]
  | comprehension hx _ _ ihd ihp =>
    simp only [occurrences_comprehension, List.forall_mem_cons, List.forall_mem_append] at hf
    rw [rename, hf.1 _ hx, ihd hf.2.1, ihp hf.2.2]

/-! ## One-to-one relations -/

section BiUnique

variable (hR : Relator.BiUnique R)

include hR

theorem eq_iff_eq {x x' z z' : Nat} (hx : R x x') (hz : R z z') : z = x ↔ z' = x' := by
  constructor
  · rintro rfl
    exact hR.2 hz hx
  · rintro rfl
    exact hR.1 hz hx

theorem mem_occurrences_iff (h : Matched R e e') {x x' : Nat} (hx : R x x') :
    x ∈ e.occurrences ↔ x' ∈ e'.occurrences :=
  List.rel_mem hR hx h.occurrences

theorem renameFree (h : Matched R e e') {x x' y y' : Nat} (hx : R x x') (hy : R y y') :
    Matched R (e.renameFree x y) (e'.renameFree x' y') := by
  -- a binder shadows `x` in one tree if and only if its counterpart shadows `x'` in the other
  have hbinder {z z' : Nat} {a a' : Expr} (hz : R z z') (ha : Matched R a a')
      (ih : Matched R (a.renameFree x y) (a'.renameFree x' y')) :
      Matched R (if z = x then a else a.renameFree x y)
        (if z' = x' then a' else a'.renameFree x' y') := by
    by_cases hzx : z = x
    · rw [if_pos hzx, if_pos ((eq_iff_eq hR hx hz).1 hzx)]
      exact ha
    · rw [if_neg hzx, if_neg fun hzx' => hzx ((eq_iff_eq hR hx hz).2 hzx')]
      exact ih
  induction h with
  | var hi =>
    rename_i i i'
    rw [Expr.renameFree, Expr.renameFree]
    by_cases hix : i = x
    · rw [if_pos hix, if_pos ((eq_iff_eq hR hx hi).1 hix)]
      exact .var hy
    · rw [if_neg hix, if_neg fun hix' => hix ((eq_iff_eq hR hx hi).2 hix')]
      exact .var hi
  | constant c => exact .constant c
  | relation r _ _ iha ihb => exact .relation r iha ihb
  | negation _ ih => exact .negation ih
  | connective c _ _ iha ihb => exact .connective c iha ihb
  | quantified q hz ha ih => exact .quantified q hz (hbinder hz ha ih)
  | unary k _ ih => exact .unary k ih
  | binary k _ _ iha ihb => exact .binary k iha ihb
  | comprehension hz _ hp ihd ihp => exact .comprehension hz ihd (hbinder hz hp ihp)

/-- The second tree is the first one renamed, and no two variables are merged. -/
theorem exists_rename (h : Matched R e e') :
    ∃ f : Nat → Nat, (∀ i ∈ e.occurrences, ∀ j ∈ e.occurrences, f i = f j → i = j) ∧
      e' = e.rename f ∧ ∀ i ∈ e.occurrences, ∀ j, R i j → j = f i := by
  classical
  have hpartner : ∀ i ∈ e.occurrences, ∃ j, R i j := by
    obtain ⟨hlength, hget⟩ := List.forall₂_iff_get.1 h.occurrences
    intro i hi
    obtain ⟨n, rfl⟩ := List.mem_iff_get.1 hi
    exact ⟨_, hget n n.2 (hlength ▸ n.2)⟩
  let f : Nat → Nat := fun i => if hi : i ∈ e.occurrences then (hpartner i hi).choose else i
  have hf : ∀ i ∈ e.occurrences, R i (f i) := fun i hi => by
    rw [show f i = (hpartner i hi).choose from dif_pos hi]
    exact (hpartner i hi).choose_spec
  have hfollows : ∀ i ∈ e.occurrences, ∀ j, R i j → j = f i :=
    fun i hi j hij => hR.2 hij (hf i hi)
  refine ⟨f, ?_, h.eq_rename hfollows, hfollows⟩
  intro i hi j hj hij
  have hji := hf j hj
  rw [← hij] at hji
  exact hR.1 (hf i hi) hji

end BiUnique

end Matched

end SetFormula.Expr

import SetFormula.Expr.Substitution
import SetFormula.Proofs.Walk

/-!
# The meaning of expressions

An `Interpretation` gives the vocabulary a membership relation and total operations. Under it, and
under an assignment `ρ` of the variables, a term denotes a set and a formula is true or false
(`Holds`). Terms and formulas contain each other, so both are parts of one recursion, `meaning`. A
`MembershipStructure` is an interpretation with the laws of sets: a set is determined by its
members, and the operations have their usual members.

None of the following needs the laws.

* Only the variables that occur matter (`meaning_congr`, `meaning_update`).
* Renaming all variables moves the renaming into the assignment, provided that no two variables of
  the tree are merged (`meaning_rename`).
* Renaming the free occurrences of `x` to a variable `y` that does not occur gives `x` the value of
  `y` (`meaning_renameFree`).
-/

namespace SetFormula

universe u

open SetFormula.Expr

/-- The truth table of a connective. -/
def Connective.Joins : Connective → Prop → Prop → Prop
  | conjunction, p, q => p ∧ q
  | disjunction, p, q => p ∨ q
  | implication, p, q => p → q
  | biconditional, p, q => p ↔ q

/-- What a quantifier says of a property. -/
def Quantifier.Ranges {M : Type u} : Quantifier → (M → Prop) → Prop
  | universal, P => ∀ m, P m
  | existential, P => ∃ m, P m

/-- Interpretations of the vocabulary by any relation and any operations, which need not be those of
sets. -/
structure Interpretation (M : Type u) where
  /-- The membership relation. -/
  Mem : M → M → Prop
  /-- The named sets. -/
  constant : Constant → M
  /-- The operators on one set. -/
  unary : UnaryOperator → M → M
  /-- The operators on two sets. -/
  binary : BinaryOperator → M → M → M
  /-- The members of a set with a property. -/
  separate : M → (M → Prop) → M

/-- Interpretations by sets. A set is determined by its members, the constant `ω` is any fixed set,
and the intersection of an empty family has no members. -/
structure MembershipStructure (M : Type u) extends Interpretation M where
  ext {a b : M} : (∀ z, Mem z a ↔ Mem z b) → a = b
  notMem_emptySet (z : M) : ¬Mem z (constant .emptySet)
  mem_singleton {z a : M} : Mem z (unary .singleton a) ↔ z = a
  mem_powerSet {z a : M} : Mem z (unary .powerSet a) ↔ ∀ w, Mem w z → Mem w a
  mem_bigUnion {z a : M} : Mem z (unary .bigUnion a) ↔ ∃ b, Mem b a ∧ Mem z b
  mem_bigIntersection {z a : M} :
    Mem z (unary .bigIntersection a) ↔ (∃ b, Mem b a) ∧ ∀ b, Mem b a → Mem z b
  mem_union {z a b : M} : Mem z (binary .union a b) ↔ Mem z a ∨ Mem z b
  mem_intersection {z a b : M} : Mem z (binary .intersection a b) ↔ Mem z a ∧ Mem z b
  mem_difference {z a b : M} : Mem z (binary .difference a b) ↔ Mem z a ∧ ¬Mem z b
  mem_pairSet {z a b : M} : Mem z (binary .pairSet a b) ↔ z = a ∨ z = b
  mem_separate {z a : M} {P : M → Prop} : Mem z (separate a P) ↔ Mem z a ∧ P z

namespace Interpretation

variable {M : Type u} (I : Interpretation M)

/-- What a relation says of two sets. -/
def Related : Relation → M → M → Prop
  | .equality, a, b => a = b
  | .element, a, b => I.Mem a b
  | .subset, a, b => ∀ z, I.Mem z a → I.Mem z b
  | .notEqual, a, b => a ≠ b
  | .notElement, a, b => ¬I.Mem a b
  | .notSubset, a, b => ¬∀ z, I.Mem z a → I.Mem z b

/-- The set that a tree denotes and whether it is true. A formula in the place of a term counts as
what stands for the empty set and a term in the place of a formula as false, so that every tree has
a meaning. -/
def meaning (ρ : Nat → M) : Expr → M × Prop
  | .var i => (ρ i, False)
  | .constant c => (I.constant c, False)
  | .relation r a b => (I.constant .emptySet, I.Related r (meaning ρ a).1 (meaning ρ b).1)
  | .negation a => (I.constant .emptySet, ¬(meaning ρ a).2)
  | .connective c a b => (I.constant .emptySet, c.Joins (meaning ρ a).2 (meaning ρ b).2)
  | .quantified q x a =>
    (I.constant .emptySet, q.Ranges fun m => (meaning (Function.update ρ x m) a).2)
  | .unary k a => (I.unary k (meaning ρ a).1, False)
  | .binary k a b => (I.binary k (meaning ρ a).1 (meaning ρ b).1, False)
  | .comprehension x d p =>
    (I.separate (meaning ρ d).1 fun m => (meaning (Function.update ρ x m) p).2, False)

/-- The formula is true. -/
def Holds (ρ : Nat → M) (e : Expr) : Prop := (I.meaning ρ e).2

/-! ## Variables that do not occur -/

/-- The meaning of a tree depends on the variables that occur in it only. -/
theorem meaning_congr (e : Expr) {ρ ρ' : Nat → M} (h : ∀ i ∈ e.occurrences, ρ i = ρ' i) :
    I.meaning ρ e = I.meaning ρ' e := by
  have hupdate {ρ ρ' : Nat → M} {a : Expr} (ha : ∀ i ∈ a.occurrences, ρ i = ρ' i) (x : Nat)
      (m : M) : ∀ i ∈ a.occurrences, Function.update ρ x m i = Function.update ρ' x m i := by
    intro i hi
    by_cases hx : i = x
    · rw [hx, Function.update_self, Function.update_self]
    · rw [Function.update_of_ne hx, Function.update_of_ne hx, ha i hi]
  induction e generalizing ρ ρ' with
  | var i => rw [meaning, meaning, h i (by simp)]
  | constant c => rfl
  | relation r a b iha ihb | connective c a b iha ihb | binary k a b iha ihb =>
    simp only [occurrences_relation, occurrences_connective, occurrences_binary,
      List.forall_mem_append] at h
    rw [meaning, meaning, iha h.1, ihb h.2]
  | negation a ih | unary k a ih =>
    simp only [occurrences_negation, occurrences_unary] at h
    rw [meaning, meaning, ih h]
  | quantified q x a ih =>
    simp only [occurrences_quantified, List.forall_mem_cons] at h
    simp only [meaning, ih (hupdate h.2 x _)]
  | comprehension x d p ihd ihp =>
    simp only [occurrences_comprehension, List.forall_mem_cons, List.forall_mem_append] at h
    simp only [meaning, ihd h.2.1, ihp (hupdate h.2.2 x _)]

/-- A variable that does not occur may have any value. -/
theorem meaning_update {e : Expr} {y : Nat} (hy : y ∉ e.occurrences) (ρ : Nat → M) (m : M) :
    I.meaning (Function.update ρ y m) e = I.meaning ρ e := by
  refine I.meaning_congr e fun i hi => Function.update_of_ne ?_ m ρ
  rintro rfl
  exact hy hi

/-! ## Renaming -/

/-- Renaming all variables moves the renaming into the assignment. -/
theorem meaning_rename {f : Nat → Nat} {e : Expr}
    (hf : ∀ i ∈ e.occurrences, ∀ j ∈ e.occurrences, f i = f j → i = j) (ρ : Nat → M) :
    I.meaning ρ (e.rename f) = I.meaning (ρ ∘ f) e := by
  -- below a binder of `x`, the renamed binder changes the value of `x` and of no other variable
  have hupdate {x : Nat} {a : Expr} (hx : ∀ i ∈ a.occurrences, f i = f x → i = x) (ρ : Nat → M)
      (m : M) : I.meaning (Function.update ρ (f x) m ∘ f) a
        = I.meaning (Function.update (ρ ∘ f) x m) a := by
    refine I.meaning_congr a fun i hi => ?_
    by_cases hix : i = x
    · rw [hix, Function.comp_apply, Function.update_self, Function.update_self]
    · rw [Function.comp_apply, Function.update_of_ne (fun h => hix (hx i hi h)),
        Function.update_of_ne hix, Function.comp_apply]
  induction e generalizing ρ with
  | var i => rfl
  | constant c => rfl
  | relation r a b iha ihb | connective c a b iha ihb | binary k a b iha ihb =>
    simp only [occurrences_relation, occurrences_connective, occurrences_binary,
      List.mem_append] at hf
    rw [rename, meaning, meaning, iha fun i hi j hj => hf i (.inl hi) j (.inl hj),
      ihb fun i hi j hj => hf i (.inr hi) j (.inr hj)]
  | negation a ih | unary k a ih =>
    simp only [occurrences_negation, occurrences_unary] at hf
    rw [rename, meaning, meaning, ih hf]
  | quantified q x a ih =>
    simp only [occurrences_quantified, List.mem_cons] at hf
    have hx : ∀ i ∈ a.occurrences, f i = f x → i = x := fun i hi => hf i (.inr hi) x (.inl rfl)
    simp only [rename, meaning, ih fun i hi j hj => hf i (.inr hi) j (.inr hj), hupdate hx]
  | comprehension x d p ihd ihp =>
    simp only [occurrences_comprehension, List.mem_cons, List.mem_append] at hf
    have hx : ∀ i ∈ p.occurrences, f i = f x → i = x :=
      fun i hi => hf i (.inr (.inr hi)) x (.inl rfl)
    simp only [rename, meaning, ihd fun i hi j hj => hf i (.inr (.inl hi)) j (.inr (.inl hj)),
      ihp fun i hi j hj => hf i (.inr (.inr hi)) j (.inr (.inr hj)), hupdate hx]

/-- Renaming the free occurrences of `x` to a new variable `y` gives `x` the value of `y`. -/
theorem meaning_renameFree {x y : Nat} {e : Expr} (hy : y ∉ e.occurrences) (ρ : Nat → M) :
    I.meaning ρ (e.renameFree x y) = I.meaning (Function.update ρ x (ρ y)) e := by
  -- a binder of `x` hides the new value of `x`, and a binder of another variable, which is not `y`
  -- either, leaves it alone
  have hbinder {z : Nat} {a : Expr} (hz : y ≠ z) (ρ : Nat → M) (m : M)
      (ih : ∀ ρ, I.meaning ρ (a.renameFree x y) = I.meaning (Function.update ρ x (ρ y)) a) :
      I.meaning (Function.update ρ z m) (if z = x then a else a.renameFree x y)
        = I.meaning (Function.update (Function.update ρ x (ρ y)) z m) a := by
    split
    · rename_i hzx
      rw [hzx, Function.update_idem]
    · rename_i hzx
      rw [ih, Function.update_of_ne hz, Function.update_comm hzx]
  induction e generalizing ρ with
  | var i =>
    rw [renameFree]
    split
    · rename_i hi
      rw [hi, meaning, meaning, Function.update_self]
    · rename_i hi
      rw [meaning, meaning, Function.update_of_ne hi]
  | constant c => rfl
  | relation r a b iha ihb | connective c a b iha ihb | binary k a b iha ihb =>
    simp only [occurrences_relation, occurrences_connective, occurrences_binary, List.mem_append,
      not_or] at hy
    rw [renameFree, meaning, meaning, iha hy.1, ihb hy.2]
  | negation a ih | unary k a ih =>
    simp only [occurrences_negation, occurrences_unary] at hy
    rw [renameFree, meaning, meaning, ih hy]
  | quantified q z a ih =>
    simp only [occurrences_quantified, List.mem_cons, not_or] at hy
    simp only [renameFree, meaning, hbinder hy.1 ρ _ (ih hy.2)]
  | comprehension z d p ihd ihp =>
    simp only [occurrences_comprehension, List.mem_cons, List.mem_append, not_or] at hy
    simp only [renameFree, meaning, ihd hy.2.1, hbinder hy.1 ρ _ (ihp hy.2.2)]

end Interpretation

end SetFormula

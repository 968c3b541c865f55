import SetFormula.Proofs.Unfolds

/-!
# A weight that no rule raises

The rules copy operands and turn equalities into memberships and back, so the size of a tree is no
measure of what is left to do. `Expr.weight` is one: no rule raises it (`Unfolds.noHeavier`), it
bounds the height (`height_le_weight`), and a tree weighs more than what lies below its root
(`weight_lt_relation` for the relations).

Two kinds of terms have to be told apart. A membership in a union, an intersection, a difference or
a pair set is unfolded at once, and an equality with such a term goes through a membership. For the
other terms it is the other way round: a membership first gives the term a name by an equality. So a
membership in a term of the second kind weighs more than an equality with it, and one in a term of
the first kind weighs less.
-/

namespace SetFormula.Expr

/-! ## Weights -/

/-- Whether the root is a variable. -/
def isVariable : Expr → Bool
  | var _ => true
  | _ => false

/-- The weight of a term of weight `w` on the left of a membership. A variable costs nothing there,
as it needs no name. -/
def leftWeight (e : Expr) (w : Nat) : Nat := if e.isVariable then 0 else w + 6

/-- The weight of a term of weight `w` on the right of a membership. -/
def rightWeight (e : Expr) (w : Nat) : Nat := if e.isMemberwise then w else w + 6

/-- How much there is to unfold in a tree, whatever the switches. -/
def weight : Expr → Nat
  | var _ => 0
  | constant .emptySet => 5
  | constant .omega => 40
  | relation .equality a b => a.weight + b.weight + 4
  | relation .element a b => a.leftWeight a.weight + b.rightWeight b.weight + 1
  | relation .subset a b => a.weight + b.weight + 10
  | relation .notEqual a b => a.weight + b.weight + 5
  | relation .notElement a b => a.leftWeight a.weight + b.rightWeight b.weight + 2
  | relation .notSubset a b => a.weight + b.weight + 11
  | negation a => a.weight + 1
  | connective _ a b => max a.weight b.weight + 1
  | quantified _ _ a => a.weight + 1
  | unary .singleton a => a.weight + 17
  | unary .powerSet a => a.weight + 9
  | unary .bigUnion a => a.weight + 10
  | unary .bigIntersection a => a.weight + 10
  | binary _ a b => max a.weight b.weight + 9
  | comprehension _ d p => max d.weight p.weight + 8

theorem le_rightWeight (e : Expr) (w : Nat) : w ≤ e.rightWeight w := by
  unfold rightWeight
  split <;> omega

theorem rightWeight_le (e : Expr) (w : Nat) : e.rightWeight w ≤ w + 6 := by
  unfold rightWeight
  split <;> omega

/-- A variable weighs nothing, so no term weighs more than it does on the left of a membership. -/
theorem weight_le_leftWeight (e : Expr) : e.weight ≤ e.leftWeight e.weight := by
  unfold leftWeight
  split
  · rename_i hvar
    cases e with
    | var i => exact Nat.le_refl 0
    | _ => cases hvar
  · omega

theorem leftWeight_mono {e e' : Expr} {w w' : Nat} (he : e'.isVariable = e.isVariable)
    (hw : w' ≤ w) : e'.leftWeight w' ≤ e.leftWeight w := by
  unfold leftWeight
  rw [he]
  split <;> omega

theorem rightWeight_mono {e e' : Expr} {w w' : Nat} (he : e'.isMemberwise = e.isMemberwise)
    (hw : w' ≤ w) : e'.rightWeight w' ≤ e.rightWeight w := by
  unfold rightWeight
  rw [he]
  split <;> omega

section

-- the equations are made here once, not by each of the proofs that follow
attribute [local simp] weight

theorem le_weight_of_isMemberwise {e : Expr} (h : e.isMemberwise) : 9 ≤ e.weight := by
  cases e with
  | unary k a => cases k <;> simp_all [isMemberwise]
  | binary k a b => simp
  | _ => cases h

end

/-! ## Below the root -/

theorem weight_lt_relation (r : Relation) (a b : Expr) :
    a.weight < (relation r a b).weight ∧ b.weight < (relation r a b).weight := by
  have ha := a.weight_le_leftWeight
  have hb := b.le_rightWeight b.weight
  cases r <;> simp only [weight] <;> omega

theorem weight_lt_unary (k : UnaryOperator) (a : Expr) : a.weight < (unary k a).weight := by
  cases k <;> simp only [weight] <;> omega

theorem height_le_weight (e : Expr) : e.height ≤ e.weight := by
  induction e with
  | var i => exact Nat.le_refl 0
  | constant c => exact Nat.zero_le _
  | relation r a b iha ihb =>
    have h := weight_lt_relation r a b
    simp only [height]
    omega
  | unary k a ih =>
    have h := weight_lt_unary k a
    simp only [height]
    omega
  | negation a ih | quantified q x a ih =>
    simp only [height, weight]
    omega
  | connective c a b iha ihb | binary k a b iha ihb | comprehension x a b iha ihb =>
    simp only [height, weight]
    omega

/-! ## Renaming -/

@[simp] theorem isVariable_rename (f : Nat → Nat) (e : Expr) :
    (e.rename f).isVariable = e.isVariable := by
  cases e <;> rfl

@[simp] theorem isMemberwise_rename (f : Nat → Nat) (e : Expr) :
    (e.rename f).isMemberwise = e.isMemberwise := by
  cases e with
  | unary k a => cases k <;> rfl
  | _ => rfl

@[simp] theorem weight_rename (f : Nat → Nat) (e : Expr) : (e.rename f).weight = e.weight := by
  induction e with
  | relation r a b iha ihb =>
    cases r <;> simp [rename, weight, leftWeight, rightWeight, iha, ihb]
  | constant c => rfl
  | unary k a ih => cases k <;> simp [rename, weight, ih]
  | _ => simp_all [rename, weight]

@[simp] theorem isVariable_renameFree (x y : Nat) (e : Expr) :
    (e.renameFree x y).isVariable = e.isVariable := by
  cases e with
  | var i =>
    simp only [renameFree]
    split <;> rfl
  | _ => rfl

@[simp] theorem isMemberwise_renameFree (x y : Nat) (e : Expr) :
    (e.renameFree x y).isMemberwise = e.isMemberwise := by
  cases e with
  | var i =>
    simp only [renameFree]
    split <;> rfl
  | unary k a => cases k <;> rfl
  | _ => rfl

@[simp] theorem weight_renameFree (x y : Nat) (e : Expr) :
    (e.renameFree x y).weight = e.weight := by
  induction e with
  | var i =>
    simp only [renameFree]
    split <;> rfl
  | constant c => rfl
  | relation r a b iha ihb =>
    cases r <;> simp [renameFree, weight, leftWeight, rightWeight, iha, ihb]
  | unary k a ih => cases k <;> simp [renameFree, weight, ih]
  | quantified q z a ih =>
    simp only [renameFree, weight]
    split <;> simp [ih]
  | comprehension z d p ihd ihp =>
    simp only [renameFree, weight, ihd]
    split <;> simp [ihp]
  | _ => simp_all [renameFree, weight]

end SetFormula.Expr

/-! ## No rule raises the weight -/

namespace SetFormula.Elimination

open SetFormula.Expr

variable {s : Switches} {y : Nat} {e e' : Expr}

/-- The tree `e'` may stand wherever `e` does and weighs no more there. -/
structure NoHeavier (e e' : Expr) : Prop where
  weight_le : e'.weight ≤ e.weight
  isVariable_eq : e'.isVariable = e.isVariable
  isMemberwise_eq : e'.isMemberwise = e.isMemberwise

theorem Rewrites.noHeavier (h : Rewrites s e e') : NoHeavier e e' := by
  cases h with
  | negated on hr a b =>
    rename_i r
    refine ⟨?_, rfl, rfl⟩
    cases r <;> simp_all [Relation.isNegated, Relation.positive, weight]
  | swap a b =>
    refine ⟨?_, rfl, rfl⟩
    simp only [weight]
    omega
  | comprehension on hb hd p =>
    rename_i x d b
    refine ⟨?_, rfl, rfl⟩
    have hb' := b.rightWeight_le b.weight
    have hd' := d.rightWeight_le d.weight
    simp only [weight, leftWeight, isVariable, if_true]
    omega
  | intersection on a b c | difference on a b c | union on a b c =>
    refine ⟨?_, rfl, rfl⟩
    have hb := b.rightWeight_le b.weight
    have hc := c.rightWeight_le c.weight
    simp only [weight, rightWeight, isMemberwise, if_true] at hb hc ⊢
    omega
  | pairSet on a b c =>
    refine ⟨?_, rfl, rfl⟩
    have ha := a.weight_le_leftWeight
    simp only [weight, rightWeight, isMemberwise, if_true]
    omega

theorem two_le_weight_of_targets (h : Targets s e) : 2 ≤ e.weight := by
  rcases h with h | h
  · cases e with
    | unary k a => cases k <;> simp only [weight] <;> omega
    | binary k a b | comprehension x a b =>
      simp only [weight]
      omega
    | _ => cases h
  · cases e with
    | constant c => cases c <;> simp [weight]
    | _ => cases h

theorem isVariable_eq_false_of_targets (h : Targets s e) : e.isVariable = false := by
  cases e with
  | var i => rcases h with h | h <;> cases h
  | _ => rfl

theorem Introduces.noHeavier (h : Introduces s y e e') : NoHeavier e e' := by
  cases h with
  | subset on a b =>
    refine ⟨?_, rfl, rfl⟩
    have ha := a.rightWeight_le a.weight
    have hb := b.rightWeight_le b.weight
    simp only [weight, leftWeight, isVariable, if_true]
    omega
  | singleton on a =>
    refine ⟨?_, rfl, rfl⟩
    simp only [weight]
    omega
  | sameMembers on =>
    rename_i a b
    refine ⟨?_, rfl, rfl⟩
    have ha := a.rightWeight_le a.weight
    have hb := b.rightWeight_le b.weight
    rcases on with ⟨-, hm⟩ | ⟨-, hm⟩
    · have := le_weight_of_isMemberwise hm
      simp only [weight, leftWeight, rightWeight, isVariable, hm, if_true] at ha hb ⊢
      omega
    · have := le_weight_of_isMemberwise hm
      simp only [weight, leftWeight, rightWeight, isVariable, hm, if_true] at ha hb ⊢
      omega
  | powerSet on a b =>
    refine ⟨?_, rfl, rfl⟩
    have hb := b.rightWeight_le b.weight
    simp only [weight, leftWeight, isVariable, if_true]
    omega
  | comprehension on x d p b =>
    refine ⟨?_, rfl, rfl⟩
    have hb := b.rightWeight_le b.weight
    have hd := d.rightWeight_le d.weight
    simp only [weight, leftWeight, isVariable, if_true, weight_renameFree]
    omega
  | bigIntersection on a f | bigUnion on a f =>
    refine ⟨?_, rfl, rfl⟩
    have hf := f.rightWeight_le f.weight
    have hy : (var y).rightWeight 0 = 6 := rfl
    simp only [weight, leftWeight, rightWeight, isVariable, isMemberwise, if_true] at hf hy ⊢
    omega
  | memberOfNamed on hm a =>
    rename_i e
    refine ⟨?_, rfl, rfl⟩
    have he := two_le_weight_of_targets on
    have hy : (var y).rightWeight 0 = 6 := rfl
    have hr : e.rightWeight e.weight = e.weight + 6 := by simp [rightWeight, hm]
    simp only [weight, hr, hy]
    omega
  | namedMemberOf on b =>
    rename_i e
    refine ⟨?_, rfl, rfl⟩
    have hl : e.leftWeight e.weight = e.weight + 6 := by
      simp [leftWeight, isVariable_eq_false_of_targets on]
    have hy : (var y).leftWeight 0 = 0 := rfl
    simp only [weight, hl, hy]
    omega
  | emptySet on a =>
    refine ⟨?_, rfl, rfl⟩
    have ha := a.rightWeight_le a.weight
    have hy : (var y).leftWeight 0 = 0 := rfl
    simp only [weight, hy]
    omega
  | omega on a =>
    refine ⟨?_, rfl, rfl⟩
    have ha := a.rightWeight_le a.weight
    simp only [weight, leftWeight, isVariable, if_true, Bool.false_eq_true, if_false]
    omega

/-- **No unfolding raises the weight.** -/
theorem Unfolds.noHeavier {t t' : Taken} (h : Unfolds s e t e' t') : NoHeavier e e' := by
  induction h with
  | refl e t => exact ⟨Nat.le_refl _, rfl, rfl⟩
  | trans _ _ ih₁ ih₂ =>
    exact ⟨Nat.le_trans ih₂.weight_le ih₁.weight_le, ih₂.isVariable_eq.trans ih₁.isVariable_eq,
      ih₂.isMemberwise_eq.trans ih₁.isMemberwise_eq⟩
  | rewrite h t => exact h.noHeavier
  | introduce h => exact h.noHeavier
  | relation r _ _ iha ihb =>
    refine ⟨?_, rfl, rfl⟩
    have ha := iha.weight_le
    have hb := ihb.weight_le
    have hl := leftWeight_mono iha.isVariable_eq ha
    have hr := rightWeight_mono ihb.isMemberwise_eq hb
    cases r <;> simp only [weight] <;> omega
  | unary k _ ih =>
    refine ⟨?_, rfl, ?_⟩
    · have ha := ih.weight_le
      cases k <;> simp only [weight] <;> omega
    · cases k <;> rfl
  | negation _ ih | quantified q x _ ih =>
    refine ⟨?_, rfl, rfl⟩
    have ha := ih.weight_le
    simp only [weight]
    omega
  | connective c _ _ iha ihb | binary k _ _ iha ihb | comprehension x _ _ iha ihb =>
    refine ⟨?_, rfl, rfl⟩
    have ha := iha.weight_le
    have hb := ihb.weight_le
    simp only [weight]
    omega

end SetFormula.Elimination

import SetFormula.Proofs.Letters
import SetFormula.Proofs.ParsedTrees
import SetFormula.Proofs.Relations

/-!
# Full elimination leaves the primitive vocabulary

With every switch on, the passes narrow a well-sorted formula down step by step.

* After the second pass no relation is negated, and after the third only `=` and `∈` are left. The
  later rules introduce no other relation (`operatorRule_relationsAmong`).
* A rule for operators returns a relation only if no operand is left to eliminate
  (`untargeted_of_operatorRule`), so the fourth pass leaves variables and constants as operands
  (`operators_isPrimitive`).
* The same holds of the last pass, whose rule for `ω` runs the fourth pass once more
  (`constants_isPrimitive`).

Every formula that is read is well sorted, so this covers all of them: `full_elimination_primitive`.
-/

namespace SetFormula

namespace Expr

/-! ## The primitive trees, node by node -/

section Primitive

variable (c : Bool)

@[simp] theorem isPrimitive_var (i : Nat) : (var i).isPrimitive c = true := rfl

@[simp] theorem isPrimitive_relation (r : Relation) (a b : Expr) :
    (relation r a b).isPrimitive c ↔ r.isBasic ∧ a.isPrimitive c ∧ b.isPrimitive c := by
  rw [isPrimitive_iff]
  cases r <;> simp [children, isPrimitiveNode, Relation.isBasic]

@[simp] theorem isPrimitive_negation (a : Expr) :
    (negation a).isPrimitive c ↔ a.isPrimitive c := by
  rw [isPrimitive_iff]
  simp [children, isPrimitiveNode]

@[simp] theorem isPrimitive_connective (k : Connective) (a b : Expr) :
    (connective k a b).isPrimitive c ↔ a.isPrimitive c ∧ b.isPrimitive c := by
  rw [isPrimitive_iff]
  simp [children, isPrimitiveNode]

@[simp] theorem isPrimitive_quantified (q : Quantifier) (x : Nat) (a : Expr) :
    (quantified q x a).isPrimitive c ↔ a.isPrimitive c := by
  rw [isPrimitive_iff]
  simp [children, isPrimitiveNode]

theorem isBasic_of_isPrimitive {c : Bool} {e : Expr} (h : e.isPrimitive c) : e.isBasic := by
  induction e with
  | var i => rfl
  | constant k => rfl
  | relation r a b iha ihb =>
    simp only [isPrimitive_relation] at h
    simp [relationsAmong, h.1, iha h.2.1, ihb h.2.2]
  | negation a ih => exact ih ((isPrimitive_negation c a).1 h)
  | connective k a b iha ihb =>
    simp only [isPrimitive_connective] at h
    simp [relationsAmong, iha h.1, ihb h.2]
  | quantified q x a ih => exact ih ((isPrimitive_quantified c q x a).1 h)
  | unary k a | binary k a b | comprehension x d p => cases ((isPrimitive_iff _ c).1 h).1

end Primitive

theorem isBasic_of_mem_children {e a : Expr} (he : e.isBasic) (ha : a ∈ e.children) :
    a.isBasic := by
  cases e <;> simp_all [children, relationsAmong] <;>
    rcases ha with rfl | rfl <;> simp_all [relationsAmong, Relation.isBasic]

/-- Below a well-sorted formula there are formulas, the variables of quantifiers, and the operands
of relations. -/
theorem mem_children_cases {e a : Expr} (he : e.isWellSortedFormula) (ha : a ∈ e.children) :
    a.isWellSortedFormula ∨ (∃ i, a = var i) ∨
      ∃ r b c, e = relation r b c ∧ (a = b ∨ a = c) ∧ a.isWellSortedTerm := by
  cases e with
  | relation r b c =>
    simp only [isWellSortedFormula, Bool.and_eq_true, children, List.mem_cons, List.not_mem_nil,
      or_false] at he ha
    rcases ha with rfl | rfl
    · exact .inr (.inr ⟨r, _, _, rfl, .inl rfl, he.1⟩)
    · exact .inr (.inr ⟨r, _, _, rfl, .inr rfl, he.2⟩)
  | quantified q x b =>
    simp only [children, List.mem_cons, List.not_mem_nil, or_false] at ha
    rcases ha with rfl | rfl
    · exact .inr (.inl ⟨x, rfl⟩)
    · exact .inl he
  | _ => simp_all [isWellSortedFormula, children] <;> grind

end Expr

namespace Elimination

open SetFormula.Expr

variable {s : Switches} {e e' : Expr} {t t' : Taken}

/-! ## Operands -/

/-- The rule for an equality with a term that is to be eliminated returns no relation. -/
theorem equalityOf_ne_relation {left right term other a b : Expr} {r : Relation} :
    equalityOf s left right term other t ≠ some (.relation r a b, t') := by
  intro h
  unfold equalityOf at h
  split at h
  · obtain ⟨y, t₁, hy, h⟩ := Unfolding.bind_eq_some.1 h
    split at h <;> cases h
  · unfold comprehensionEquality at h
    split at h <;> cases h
  · cases h

/-- A rule for operators returns an equality or a membership only if no operand is to be
eliminated. -/
theorem untargeted_of_operatorRule {r : Relation} {a b : Expr} (hr : r.isBasic)
    (h : operatorRule s e t = some (.relation r a b, t')) :
    targeted s a = false ∧ targeted s b = false := by
  unfold operatorRule at h
  split at h
  · rw [unfoldSingleton] at h
    split at h <;> cases h
  · obtain ⟨a₁, t₁, ha, h⟩ := Unfolding.bind_eq_some.1 h
    obtain ⟨b₁, t₂, hb, h⟩ := Unfolding.bind_eq_some.1 h
    unfold equalityRule at h
    split at h
    · exact absurd h equalityOf_ne_relation
    · split at h
      · exact absurd h equalityOf_ne_relation
      · cases h
        simp_all
  · obtain ⟨a₁, t₁, ha, h⟩ := Unfolding.bind_eq_some.1 h
    obtain ⟨b₁, t₂, hb, h⟩ := Unfolding.bind_eq_some.1 h
    unfold membershipRule at h
    split at h
    · unfold memberOf at h
      split at h <;> cases h
    · split at h
      · cases h
      · cases h
        simp_all
  · rename_i heq hmem
    cases h
    cases r with
    | equality => exact absurd rfl (heq a b)
    | element => exact absurd rfl (hmem a b)
    | _ => cases hr

/-! ## The passes -/

/-- A step that makes the children of a formula primitive makes the formula primitive. -/
theorem descend_isPrimitive {step : Expr → Unfolding Expr} {c : Bool}
    (he : e.isWellSortedFormula) (hr : ∀ r a b, e = .relation r a b → r.isBasic)
    (hstep : ∀ a ∈ e.children, ∀ t a' t', step a t = some (a', t') → a'.isPrimitive c)
    (h : descend step e t = some (e', t')) : e'.isPrimitive c := by
  cases descend_below h with
  | relation r ha hb =>
    obtain ⟨t₁, t₂, ha⟩ := ha
    obtain ⟨t₃, t₄, hb⟩ := hb
    refine (isPrimitive_relation c r _ _).2 ⟨hr r _ _ rfl, ?_, ?_⟩
    · exact hstep _ (by simp [children]) _ _ _ ha
    · exact hstep _ (by simp [children]) _ _ _ hb
  | negation ha =>
    obtain ⟨t₁, t₂, ha⟩ := ha
    exact (isPrimitive_negation c _).2 (hstep _ (by simp [children]) _ _ _ ha)
  | connective k ha hb =>
    obtain ⟨t₁, t₂, ha⟩ := ha
    obtain ⟨t₃, t₄, hb⟩ := hb
    refine (isPrimitive_connective c k _ _).2 ⟨?_, ?_⟩
    · exact hstep _ (by simp [children]) _ _ _ ha
    · exact hstep _ (by simp [children]) _ _ _ hb
  | quantified q x ha =>
    obtain ⟨t₁, t₂, ha⟩ := ha
    exact (isPrimitive_quantified c q x _).2 (hstep _ (by simp [children]) _ _ _ ha)
  | _ => cases he

theorem eq_of_operators_atom {depth : Nat} {a a' : Expr} (ha : a.children = [])
    (h : operators s depth a t = some (a', t')) : a' = a := by
  cases depth with
  | zero => cases h
  | succ depth =>
    cases a with
    | var i | constant c => cases h; rfl
    | _ => cases ha

theorem eq_of_constants_atom {depth : Nat} {a a' : Expr} (ha : a.children = [])
    (h : constants s depth a t = some (a', t')) : a' = a := by
  cases depth with
  | zero => cases h
  | succ depth =>
    cases a with
    | var i | constant c => cases h; rfl
    | _ => cases ha

/-- The fourth pass leaves variables and constants as the only terms. -/
theorem operators_isPrimitive {depth : Nat} (he : e.isWellSortedFormula) (hb : e.isBasic)
    (h : operators .allOn depth e t = some (e', t')) : e'.isPrimitive true := by
  induction depth generalizing e e' t t' with
  | zero => cases h
  | succ depth ih =>
    rw [operators_succ] at h
    obtain ⟨e₁, t₁, hrule, h⟩ := Unfolding.bind_eq_some.1 h
    have he₁ := (operatorRule_unfolds hrule).keepsSort.formula he
    have hb₁ := operatorRule_relationsAmong (admits_isBasic rfl) hb hrule
    have hrel : ∀ r a b, e₁ = .relation r a b → r.isBasic := by
      rintro r a b rfl
      simp only [relationsAmong, Bool.and_eq_true] at hb₁
      exact hb₁.1
    refine descend_isPrimitive he₁ hrel (fun a ha t a' t' hstep => ?_) h
    rcases mem_children_cases he₁ ha with hformula | ⟨i, rfl⟩ | ⟨r, b, c, rfl, hside, hterm⟩
    · exact ih hformula (isBasic_of_mem_children hb₁ ha) hstep
    · rw [eq_of_operators_atom rfl hstep]
      rfl
    · -- an operand that is left over is a variable or a constant
      have hoff := untargeted_of_operatorRule (hrel r b c rfl) hrule
      have hoff : targeted .allOn a = false := by rcases hside with rfl | rfl <;> simp [hoff]
      cases a with
      | var i | constant k =>
        rw [eq_of_operators_atom rfl hstep]
        rfl
      | unary k a | binary k a b | comprehension x d p => cases hoff
      | _ => cases hterm

theorem operators_connective {depth : Nat} {c : Connective} {a b : Expr}
    (h : operators s depth (.connective c a b) t = some (e', t')) :
    ∃ a' b', e' = .connective c a' b' := by
  cases depth with
  | zero => cases h
  | succ depth =>
    obtain ⟨e₁, t₁, hrule, h⟩ := Unfolding.bind_eq_some.1 h
    cases hrule
    obtain ⟨a', t₁, ha, h⟩ := Unfolding.bind_eq_some.1 h
    obtain ⟨b', t₂, hb, h⟩ := Unfolding.bind_eq_some.1 h
    cases h
    exact ⟨a', b', rfl⟩

/-- What a rule for constants returns: a formula that is primitive but for constants, in which a
relation at the root has no constant as an operand. -/
structure Settled (e : Expr) : Prop where
  isPrimitive : e.isPrimitive true
  operands : ∀ r a b, e = .relation r a b →
    targetedConstant .allOn a = false ∧ targetedConstant .allOn b = false

theorem constantEqualityRule_settled {depth : Nat} {left right : Expr}
    (hleft : left.isWellSortedTerm ∧ left.isPrimitive true)
    (hright : right.isWellSortedTerm ∧ right.isPrimitive true)
    (h : constantEqualityRule .allOn depth left right t = some (e', t')) : Settled e' := by
  rcases constantEqualityRule_cases h with ⟨rfl, -, hoff⟩ | ⟨c, other, hsides, hrule⟩
  · refine ⟨by simp [Relation.isBasic, hleft.2, hright.2], ?_⟩
    rintro r a b ⟨⟩
    exact hoff
  · have hother : other.isWellSortedTerm ∧ other.isPrimitive true := by
      rcases hsides with ⟨-, rfl⟩ | ⟨-, rfl⟩ <;> assumption
    rcases hrule with ⟨rfl, -, h⟩ | ⟨rfl, -, h⟩
    · cases h
      exact ⟨by simp [Relation.isBasic, hother.2], by rintro r a b ⟨⟩⟩
    · obtain ⟨e₁, t₁, hω, h⟩ := Unfolding.bind_eq_some.1 h
      cases hω
      -- the formula for `ω` has operators of its own, which the fourth pass eliminates
      obtain ⟨a', b', rfl⟩ := operators_connective h
      refine ⟨operators_isPrimitive ?_ ?_ h, by rintro r a b ⟨⟩⟩
      · simp [isWellSortedFormula, isWellSortedTerm, hother.1]
      · simp [relationsAmong, Relation.isBasic, isBasic_of_isPrimitive hother.2]

theorem constantMembershipRule_settled {left right : Expr} (hleft : left.isPrimitive true)
    (hright : right.isPrimitive true)
    (h : constantMembershipRule .allOn left right t = some (e', t')) : Settled e' := by
  unfold constantMembershipRule at h
  split at h
  · cases h
    exact ⟨by simp [Relation.isBasic, hleft, hright], nofun⟩
  · split at h
    · cases h
      exact ⟨by simp [Relation.isBasic, hleft, hright], nofun⟩
    · cases h
      refine ⟨by simp [Relation.isBasic, hleft, hright], ?_⟩
      rintro r a b ⟨⟩
      simp_all

theorem constantRule_settled {depth : Nat} (he : e.isWellSortedFormula) (hp : e.isPrimitive true)
    (h : constantRule .allOn depth e t = some (e', t')) : Settled e' := by
  cases e with
  | relation r a b =>
    simp only [isWellSortedFormula, Bool.and_eq_true, isPrimitive_relation] at he hp
    cases r with
    | equality => exact constantEqualityRule_settled ⟨he.1, hp.2.1⟩ ⟨he.2, hp.2.2⟩ h
    | element => exact constantMembershipRule_settled hp.2.1 hp.2.2 h
    | _ => cases hp.1
  | _ =>
    cases h
    exact ⟨hp, by rintro r a b ⟨⟩⟩

/-- The last pass leaves variables as the only terms. -/
theorem constants_isPrimitive {depth : Nat} (he : e.isWellSortedFormula) (hp : e.isPrimitive true)
    (h : constants .allOn depth e t = some (e', t')) : e'.isPrimitive false := by
  induction depth generalizing e e' t t' with
  | zero => cases h
  | succ depth ih =>
    rw [constants_succ] at h
    obtain ⟨e₁, t₁, hrule, h⟩ := Unfolding.bind_eq_some.1 h
    have he₁ := (constantRule_unfolds hrule).keepsSort.formula he
    have hsettled := constantRule_settled he hp hrule
    have hchildren := ((isPrimitive_iff _ _).1 hsettled.isPrimitive).2
    refine descend_isPrimitive he₁ ?_ (fun a ha t a' t' hstep => ?_) h
    · rintro r a b rfl
      exact ((isPrimitive_relation _ r a b).1 hsettled.isPrimitive).1
    · rcases mem_children_cases he₁ ha with hformula | ⟨i, rfl⟩ | ⟨r, b, c, rfl, hside, hterm⟩
      · exact ih hformula (hchildren a ha) hstep
      · rw [eq_of_constants_atom rfl hstep]
        rfl
      · -- an operand that is left over is a variable
        have hoff := hsettled.operands r b c rfl
        have hoff : targetedConstant .allOn a = false := by
          rcases hside with rfl | rfl <;> simp [hoff]
        cases a with
        | var i =>
          rw [eq_of_constants_atom rfl hstep]
          rfl
        | constant k => cases hoff
        | unary k a | binary k a b | comprehension x d p =>
          cases ((isPrimitive_iff _ _).1 (hchildren _ ha)).1
        | _ => cases hterm

end Elimination

open Elimination

/-- With every switch on, a well-sorted formula becomes primitive. -/
theorem isPrimitive_of_eliminate_allOn {depth : Nat} {e e' : Expr} (he : e.isWellSortedFormula)
    (h : eliminate .allOn depth e = some e') : e'.isPrimitive false := by
  rw [eliminate, eliminationSteps, Pass.all] at h
  simp only [Pass.runAll_cons_snd, Option.bind_eq_some_iff, Prod.exists] at h
  obtain ⟨e₁, t₁, hletters, e₂, t₂, hnegated, e₃, t₃, hsubset, e₄, t₄, hoperators, e₅, t₅,
    hconstants, h⟩ := h
  cases h
  obtain ⟨rfl, -⟩ := run_letters_eq_some hletters
  have hw₁ : (e.rename (letterRenaming .allOn e)).isWellSortedFormula := by
    rw [(Expr.isWellSorted_rename _ e).2]
    exact he
  have hw₂ := (Pass.run_unfolds (by decide) hnegated).keepsSort.formula hw₁
  have hw₃ := (Pass.run_unfolds (by decide) hsubset).keepsSort.formula hw₂
  have hw₄ := (Pass.run_unfolds (by decide) hoperators).keepsSort.formula hw₃
  have hpositive := Pass.run_negatedRelations_relationsAmong rfl hnegated
  have hbasic : e₃.isBasic := by
    refine Pass.run_subset_relationsAmong rfl rfl ?_ hsubset
    refine Expr.relationsAmong_mono (fun r hr => ?_) hpositive
    cases r <;> simp_all [Relation.isNegated, Relation.isBasic]
  exact constants_isPrimitive hw₄ (operators_isPrimitive hw₃ hbasic hoperators) hconstants

/-- **Full elimination is complete.** With every switch on, the result of eliminating from a
well-sorted formula is primitive and free of constants, and every formula that is read is well
sorted. -/
theorem full_elimination_primitive :
    (∀ limit src e, readFormula limit src = .ok e → e.isWellSortedFormula) ∧
    ∀ depth (e e' : Expr), e.isWellSortedFormula → eliminate .allOn depth e = some e' →
      e'.isPrimitive false :=
  ⟨fun _ _ _ h => (isReadableFormula_of_readFormula h).sorted,
    fun _ _ _ he h => isPrimitive_of_eliminate_allOn he h⟩

open SetFormula.Expr in
/-- The formula `{x ∈ ω | x ⊈ {∅}} ∉ y`. -/
def notMemSeparation : Expr :=
  relation .notElement
    (comprehension (indexOfLetter 'x') (constant .omega)
      (relation .notSubset (var (indexOfLetter 'x')) (unary .singleton (constant .emptySet))))
    (var (indexOfLetter 'y'))

/-- The formula is read from its text, and with 60 levels there is a result. -/
theorem full_elimination_primitive_separation :
    readFormula 40 ⟨"\x7bx ∈ ω | x ⊈ \x7b∅\x7d\x7d ∉ y", 1, none⟩ = .ok notMemSeparation ∧
    notMemSeparation.isWellSortedFormula ∧
    ∃ e', eliminate .allOn 60 notMemSeparation = some e' ∧ e'.isPrimitive false := by
  obtain ⟨hread, hprimitive⟩ := full_elimination_primitive
  have he : readFormula 40 ⟨"\x7bx ∈ ω | x ⊈ \x7b∅\x7d\x7d ∉ y", 1, none⟩ =
      .ok notMemSeparation := by
    decide +kernel
  have hsome : (eliminate .allOn 60 notMemSeparation).isSome := by decide +kernel
  obtain ⟨e', he'⟩ := Option.isSome_iff_exists.1 hsome
  have hsorted := hread _ _ _ he
  exact ⟨he, hsorted, e', he', hprimitive _ _ _ hsorted he'⟩

end SetFormula

import SetFormula.Proofs.DrawnNumbers
import SetFormula.Proofs.Primitive
import SetFormula.Proofs.Termination

/-!
# The normal form of elimination

With some switches off a result is not primitive. What every setting of the switches has in common is
the normal form `IsNormal`: no letter, no negated relation and no `⊆` is left if its switch is on,
and the operands of `=` and `∈` are neither operators nor comprehensions nor constants that are to
be eliminated. The last part, `Expr.isUnfolded`, excepts the domains of comprehensions, which no pass
visits.

* The passes establish the normal form (`operators_isUnfolded`, `constants_isUnfolded`,
  `isNormal_of_eliminate`). The last pass keeps what the fourth has done, because its rule for `ω`
  runs the fourth once more.
* They leave it alone: `operators_of_isUnfolded`, `constants_of_isUnfolded`,
  `eliminate_of_isNormal`.

Hence a second elimination changes nothing, `eliminate_idempotent`.
-/

namespace SetFormula

/-! ## Unfolded trees -/

namespace Expr

/-- The subtrees below the root that the passes for operators and constants visit: all but the
domain of a comprehension. -/
def visited : Expr → List Expr
  | var _ | constant _ => []
  | relation _ a b | connective _ a b | binary _ a b => [a, b]
  | negation a | unary _ a | quantified _ _ a | comprehension _ _ a => [a]

theorem height_lt_of_mem_visited {e a : Expr} (h : a ∈ e.visited) : a.height < e.height := by
  cases e <;> simp [visited] at h <;> simp [height] <;> grind

/-- Whether no rule applies at the root of a tree, when terms with the property `target` are to be
eliminated: these are not operands of `=` or `∈`, and a singleton is not such a term. -/
def isQuiet (target : Expr → Bool) : Expr → Bool
  | relation .equality a b | relation .element a b => !target a && !target b
  | unary .singleton a => !target (unary .singleton a)
  | _ => true

/-- Whether no rule applies at any node that is visited. -/
def isUnfolded (target : Expr → Bool) : Expr → Bool
  | var _ | constant _ => true
  | relation r a b =>
    isQuiet target (relation r a b) && (a.isUnfolded target && b.isUnfolded target)
  | connective _ a b | binary _ a b => a.isUnfolded target && b.isUnfolded target
  | unary k a => isQuiet target (unary k a) && a.isUnfolded target
  | negation a | quantified _ _ a | comprehension _ _ a => a.isUnfolded target

theorem isUnfolded_iff {target : Expr → Bool} {e : Expr} :
    e.isUnfolded target ↔ e.isQuiet target ∧ ∀ a ∈ e.visited, a.isUnfolded target := by
  cases e <;> simp [isUnfolded, visited, isQuiet]

theorem isUnfolded_of_forall_not {target : Expr → Bool} (h : ∀ e, target e = false) (e : Expr) :
    e.isUnfolded target := by
  have hquiet (e : Expr) : e.isQuiet target := by
    unfold isQuiet
    split <;> simp [h]
  induction e <;> simp_all [isUnfolded]

end Expr

namespace Elimination

open SetFormula.Expr

variable {s : Switches} {depth : Nat} {e e' : Expr} {t t' : Taken}

/-! ## The fourth pass -/

@[simp] theorem targeted_var (s : Switches) (i : Nat) : targeted s (.var i) = false := rfl

/-- No rule makes a term with an operator or a comprehension at its root out of another term, but for
singletons that are to be eliminated. -/
theorem Unfolds.targeted_eq_false (h : Unfolds s e t e' t') (he : targeted s e = false) :
    targeted s e' = false := by
  induction h with
  | refl e t => exact he
  | trans _ _ ih₁ ih₂ => exact ih₂ (ih₁ he)
  | rewrite h t => cases h <;> rfl
  | introduce h =>
    cases h with
    | singleton on a =>
      rw [targeted, UnaryOperator.switch, on] at he
      cases he
    | _ => rfl
  | unary k _ _ | binary k _ _ _ _ | comprehension x _ _ _ _ => exact he
  | _ => rfl

theorem Unfolds.targetedConstant_eq_false (h : Unfolds s e t e' t')
    (he : targetedConstant s e = false) : targetedConstant s e' = false := by
  induction h with
  | refl e t => exact he
  | trans _ _ ih₁ ih₂ => exact ih₂ (ih₁ he)
  | rewrite h t => cases h <;> rfl
  | introduce h => cases h <;> rfl
  | _ => rfl

/-- No rule makes a term out of a formula. -/
theorem Unfolds.isFormula (h : Unfolds s e t e' t') (he : e.isFormula) : e'.isFormula := by
  induction h with
  | refl e t => exact he
  | trans _ _ ih₁ ih₂ => exact ih₂ (ih₁ he)
  | rewrite h t => cases h <;> rfl
  | introduce h =>
    cases h with
    | singleton on a => cases he
    | _ => rfl
  | unary k _ _ | binary k _ _ _ _ | comprehension x _ _ _ _ => cases he
  | _ => rfl

/-- If no rule applies at the root, and below it trees become unfolded without turning into terms
that are to be eliminated, then the whole tree becomes unfolded. -/
theorem Below.isUnfolded {R : Expr → Expr → Prop} {target : Expr → Bool} (h : Below R e e')
    (hquiet : e.isQuiet target)
    (hsingleton : ∀ a a', target (.unary .singleton a) = target (.unary .singleton a'))
    (hR : ∀ a ∈ e.visited, ∀ a', R a a' →
      a'.isUnfolded target ∧ (target a = false → target a' = false)) :
    e'.isUnfolded target := by
  cases h with
  | var i | constant c => rfl
  | relation r ha hb =>
    obtain ⟨ha, hna⟩ := hR _ (by simp [visited]) _ ha
    obtain ⟨hb, hnb⟩ := hR _ (by simp [visited]) _ hb
    rw [Expr.isUnfolded, ha, hb, Bool.and_self, Bool.and_true]
    cases r with
    | equality | element =>
      simp only [isQuiet, Bool.and_eq_true, Bool.not_eq_true'] at hquiet ⊢
      exact ⟨hna hquiet.1, hnb hquiet.2⟩
    | _ => rfl
  | unary k ha =>
    rw [Expr.isUnfolded, (hR _ (by simp [visited]) _ ha).1, Bool.and_true]
    cases k with
    | singleton =>
      rw [isQuiet] at hquiet ⊢
      rw [← hquiet, hsingleton]
    | _ => rfl
  | negation ha | quantified q x ha | comprehension x d ha =>
    exact (hR _ (by simp [visited]) _ ha).1
  | connective c ha hb | binary k ha hb =>
    obtain ⟨ha, -⟩ := hR _ (by simp [visited]) _ ha
    obtain ⟨hb, -⟩ := hR _ (by simp [visited]) _ hb
    rw [Expr.isUnfolded, ha, hb, Bool.and_self]

/-- A rule for operators returns a singleton only if singletons are kept. -/
theorem singleton_off_of_operatorRule {a : Expr}
    (h : operatorRule s e t = some (.unary .singleton a, t')) : s .singleton = false := by
  have hunfolds := operatorRule_unfolds h
  unfold operatorRule at h
  split at h
  · exact not_singleton_of_unfoldSingleton h a rfl
  · cases hunfolds.isFormula rfl
  · cases hunfolds.isFormula rfl
  · rename_i hne _ _
    cases h
    exact absurd rfl (hne a)

/-- A rule for operators leaves no rule to apply at the root. -/
theorem isQuiet_of_operatorRule (h : operatorRule s e t = some (e', t')) :
    e'.isQuiet (targeted s) := by
  cases e' with
  | relation r a b =>
    cases r with
    | equality | element =>
      obtain ⟨ha, hb⟩ := untargeted_of_operatorRule rfl h
      rw [isQuiet, ha, hb]
      rfl
    | _ => rfl
  | unary k a =>
    cases k with
    | singleton =>
      have hoff : s .singleton = false := singleton_off_of_operatorRule h
      rw [isQuiet, targeted, UnaryOperator.switch, hoff]
      rfl
    | _ => rfl
  | _ => rfl

/-- The fourth pass leaves nothing to do for itself. -/
theorem operators_isUnfolded (h : operators s depth e t = some (e', t')) :
    e'.isUnfolded (targeted s) := by
  induction depth generalizing e e' t t' with
  | zero => cases h
  | succ depth ih =>
    rw [operators_succ] at h
    obtain ⟨e₁, t₁, hrule, h⟩ := Unfolding.bind_eq_some.1 h
    refine (descend_below h).isUnfolded (isQuiet_of_operatorRule hrule) (fun _ _ => rfl) ?_
    rintro a - a' ⟨t, t', hstep⟩
    exact ⟨ih hstep, (operators_unfolds hstep).targeted_eq_false⟩

theorem targeted_eq_false_of_not_touches (off : ¬s.touchesOperators) (e : Expr) :
    targeted s e = false := by
  simp only [Switches.touchesOperators, Bool.or_eq_true, List.any_eq_true, not_or, not_exists,
    not_and, Bool.not_eq_true] at off
  obtain ⟨⟨hcompr, hunary⟩, hbinary⟩ := off
  cases e with
  | unary k a => exact hunary k (by cases k <;> decide)
  | binary k a b => exact hbinary k (by cases k <;> decide)
  | comprehension x d p => exact hcompr
  | _ => rfl

theorem operatorsIfOn_connective {c : Connective} {a b : Expr}
    (h : operatorsIfOn s depth (.connective c a b) t = some (e', t')) :
    ∃ a' b', e' = .connective c a' b' := by
  unfold operatorsIfOn at h
  split at h
  · exact operators_connective h
  · cases h
    exact ⟨a, b, rfl⟩

theorem operatorsIfOn_isUnfolded (h : operatorsIfOn s depth e t = some (e', t')) :
    e'.isUnfolded (targeted s) := by
  unfold operatorsIfOn at h
  split at h
  · exact operators_isUnfolded h
  · rename_i off
    exact isUnfolded_of_forall_not (targeted_eq_false_of_not_touches off) e'

/-! ## The last pass -/

theorem isQuiet_of_constantEqualityRule {left right : Expr}
    (h : constantEqualityRule s depth left right t = some (e', t')) :
    e'.isQuiet (targetedConstant s) := by
  rcases constantEqualityRule_cases h with
    ⟨rfl, -, hleft, hright⟩ | ⟨c, other, -, ⟨rfl, -, h⟩ | ⟨rfl, -, h⟩⟩
  · simp [isQuiet, hleft, hright]
  · cases h
    rfl
  · obtain ⟨e₁, t₁, hω, h⟩ := Unfolding.bind_eq_some.1 h
    cases hω
    obtain ⟨a', b', rfl⟩ := operatorsIfOn_connective h
    rfl

/-- A rule for constants leaves no rule for constants to apply at the root. -/
theorem isQuiet_of_constantRule (h : constantRule s depth e t = some (e', t')) :
    e'.isQuiet (targetedConstant s) := by
  cases e with
  | relation r a b =>
    cases r with
    | equality => exact isQuiet_of_constantEqualityRule h
    | element =>
      change constantMembershipRule s a b t = _ at h
      unfold constantMembershipRule at h
      split at h
      · cases h
        rfl
      · split at h
        · cases h
          rfl
        · rename_i hright hleft
          cases h
          simp [isQuiet, hright, hleft]
    | _ =>
      cases h
      rfl
  | unary k a =>
    cases h
    cases k <;> rfl
  | _ =>
    cases h
    rfl

/-- The last pass leaves nothing to do for itself. -/
theorem constants_isUnfolded (h : constants s depth e t = some (e', t')) :
    e'.isUnfolded (targetedConstant s) := by
  induction depth generalizing e e' t t' with
  | zero => cases h
  | succ depth ih =>
    rw [constants_succ] at h
    obtain ⟨e₁, t₁, hrule, h⟩ := Unfolding.bind_eq_some.1 h
    refine (descend_below h).isUnfolded (isQuiet_of_constantRule hrule) (fun _ _ => rfl) ?_
    rintro a - a' ⟨t, t', hstep⟩
    exact ⟨ih hstep, (constants_unfolds hstep).targetedConstant_eq_false⟩

theorem constantEqualityRule_keeps_isUnfolded {left right : Expr}
    (he : (Expr.eq left right).isUnfolded (targeted s))
    (h : constantEqualityRule s depth left right t = some (e', t')) :
    e'.isUnfolded (targeted s) := by
  rcases constantEqualityRule_cases h with
    ⟨rfl, -, -⟩ | ⟨c, other, hsides, ⟨rfl, -, h⟩ | ⟨rfl, -, h⟩⟩
  · exact he
  · have hother : targeted s other = false ∧ other.isUnfolded (targeted s) := by
      simp only [Expr.isUnfolded, isQuiet, Bool.and_eq_true, Bool.not_eq_true'] at he
      rcases hsides with ⟨-, rfl⟩ | ⟨-, rfl⟩
      · exact ⟨he.1.2, he.2.2⟩
      · exact ⟨he.1.1, he.2.1⟩
    cases h
    simp [Expr.isUnfolded, isQuiet, hother]
  · -- the operators of the formula for `ω` are eliminated by the fourth pass
    obtain ⟨e₁, t₁, hω, h⟩ := Unfolding.bind_eq_some.1 h
    exact operatorsIfOn_isUnfolded h

theorem constantRule_keeps_isUnfolded (he : e.isUnfolded (targeted s))
    (h : constantRule s depth e t = some (e', t')) : e'.isUnfolded (targeted s) := by
  cases e with
  | relation r a b =>
    cases r with
    | equality => exact constantEqualityRule_keeps_isUnfolded he h
    | element =>
      change constantMembershipRule s a b t = _ at h
      have hparts := he
      simp only [Expr.isUnfolded, isQuiet, Bool.and_eq_true, Bool.not_eq_true'] at hparts
      unfold constantMembershipRule at h
      split at h
      · cases h
        simp [Expr.isUnfolded, isQuiet, hparts]
      · split at h
        · cases h
          simp [Expr.isUnfolded, isQuiet, hparts]
        · cases h
          exact he
    | _ =>
      cases h
      exact he
  | _ =>
    cases h
    exact he

/-- The last pass keeps what the fourth has done. -/
theorem constants_keeps_isUnfolded (he : e.isUnfolded (targeted s))
    (h : constants s depth e t = some (e', t')) : e'.isUnfolded (targeted s) := by
  induction depth generalizing e e' t t' with
  | zero => cases h
  | succ depth ih =>
    rw [constants_succ] at h
    obtain ⟨e₁, t₁, hrule, h⟩ := Unfolding.bind_eq_some.1 h
    obtain ⟨hquiet, hbelow⟩ := isUnfolded_iff.1 (constantRule_keeps_isUnfolded he hrule)
    refine (descend_below h).isUnfolded hquiet (fun _ _ => rfl) ?_
    rintro a ha a' ⟨t, t', hstep⟩
    exact ⟨ih (hbelow a ha) hstep, (constants_unfolds hstep).targeted_eq_false⟩

theorem targetedConstant_eq_false_of_not_touches (off : ¬s.touchesConstants) (e : Expr) :
    targetedConstant s e = false := by
  simp only [Switches.touchesConstants, List.any_eq_true, not_exists, not_and,
    Bool.not_eq_true] at off
  cases e with
  | constant c => exact off c (by cases c <;> decide)
  | _ => rfl

/-! ## Unfolded trees are left alone -/

/-- A step that leaves the visited subtrees alone leaves the tree alone. -/
theorem descend_eq_self {step : Expr → Unfolding Expr}
    (h : ∀ a ∈ e.visited, ∀ t, step a t = some (a, t)) (t : Taken) :
    descend step e t = some (e, t) := by
  cases e with
  | var i | constant c => rfl
  | relation r a b | connective c a b | binary k a b =>
    have ha := h a (by simp [visited]) t
    have hb := h b (by simp [visited]) t
    exact Unfolding.bind_eq_some.2 ⟨a, t, ha, Unfolding.bind_eq_some.2 ⟨b, t, hb, rfl⟩⟩
  | negation a | quantified q x a | unary k a | comprehension x d a =>
    have ha := h a (by simp [visited]) t
    exact Unfolding.bind_eq_some.2 ⟨a, t, ha, rfl⟩

theorem unfoldSingleton_of_targeted_eq_false (h : targeted s e = false) (t : Taken) :
    unfoldSingleton s e t = some (e, t) := by
  unfold unfoldSingleton
  split
  · rw [targeted, UnaryOperator.switch] at h
    rw [h]
    rfl
  · rfl

theorem operatorRule_of_isQuiet (h : e.isQuiet (targeted s)) (t : Taken) :
    operatorRule s e t = some (e, t) := by
  unfold operatorRule
  split
  · rw [isQuiet, Bool.not_eq_true'] at h
    exact unfoldSingleton_of_targeted_eq_false h t
  · rw [isQuiet, Bool.and_eq_true, Bool.not_eq_true', Bool.not_eq_true'] at h
    refine Unfolding.bind_eq_some.2 ⟨_, t, unfoldSingleton_of_targeted_eq_false h.1 t, ?_⟩
    refine Unfolding.bind_eq_some.2 ⟨_, t, unfoldSingleton_of_targeted_eq_false h.2 t, ?_⟩
    rw [equalityRule, h.1, h.2]
    rfl
  · rw [isQuiet, Bool.and_eq_true, Bool.not_eq_true', Bool.not_eq_true'] at h
    refine Unfolding.bind_eq_some.2 ⟨_, t, unfoldSingleton_of_targeted_eq_false h.1 t, ?_⟩
    refine Unfolding.bind_eq_some.2 ⟨_, t, unfoldSingleton_of_targeted_eq_false h.2 t, ?_⟩
    rw [membershipRule, h.1, h.2]
    rfl
  · rfl

theorem constantEqualityRule_of_untargeted {left right : Expr}
    (hleft : targetedConstant s left = false) (hright : targetedConstant s right = false)
    (t : Taken) :
    constantEqualityRule s depth left right t = some (.eq left right, t) := by
  rw [constantEqualityRule, hright]
  cases left with
  | constant c =>
    rw [targetedConstant] at hleft
    cases c with
    | emptySet | omega =>
      rw [Constant.switch] at hleft
      simp only [hleft]
      rfl
  | _ => rfl

theorem constantRule_of_isQuiet (h : e.isQuiet (targetedConstant s)) (t : Taken) :
    constantRule s depth e t = some (e, t) := by
  unfold constantRule
  split
  · rw [isQuiet, Bool.and_eq_true, Bool.not_eq_true', Bool.not_eq_true'] at h
    exact constantEqualityRule_of_untargeted h.1 h.2 t
  · rw [isQuiet, Bool.and_eq_true, Bool.not_eq_true', Bool.not_eq_true'] at h
    rw [constantMembershipRule, h.1, h.2]
    rfl
  · rfl

theorem operators_of_isUnfolded (he : e.isUnfolded (targeted s)) (hdepth : e.height < depth)
    (t : Taken) : operators s depth e t = some (e, t) := by
  induction depth generalizing e t with
  | zero => cases hdepth
  | succ depth ih =>
    obtain ⟨hquiet, hbelow⟩ := isUnfolded_iff.1 he
    rw [operators_succ]
    refine Unfolding.bind_eq_some.2 ⟨e, t, operatorRule_of_isQuiet hquiet t, ?_⟩
    refine descend_eq_self (fun a ha t => ih (hbelow a ha) ?_ t) t
    have hlt := height_lt_of_mem_visited ha
    omega

theorem constants_of_isUnfolded (he : e.isUnfolded (targetedConstant s))
    (hdepth : e.height < depth) (t : Taken) : constants s depth e t = some (e, t) := by
  induction depth generalizing e t with
  | zero => cases hdepth
  | succ depth ih =>
    obtain ⟨hquiet, hbelow⟩ := isUnfolded_iff.1 he
    rw [constants_succ]
    refine Unfolding.bind_eq_some.2 ⟨e, t, constantRule_of_isQuiet hquiet t, ?_⟩
    refine descend_eq_self (fun a ha t => ih (hbelow a ha) ?_ t) t
    have hlt := height_lt_of_mem_visited ha
    omega

theorem negatedRelations_of_relationsAmong (he : e.relationsAmong (!·.isNegated)) :
    negatedRelations e = e := by
  induction e with
  | relation r a b iha ihb =>
    simp only [relationsAmong, Bool.and_eq_true, Bool.not_eq_true'] at he
    rw [negatedRelations, iha he.2.1, ihb he.2.2, he.1]
    cases r with
    | equality | element | subset => rfl
    | _ => cases he.1
  | _ => simp_all [negatedRelations, relationsAmong]

theorem draws_bind {α β : Type} {m : StateM Taken α} {f : α → StateM Taken β} {a : α}
    {t t' : Taken} (h : m t = (a, t')) : (m >>= f) t = f a t' := by
  change f (m t).1 (m t).2 = f a t'
  rw [h]

theorem subsets_of_relationsAmong (he : e.relationsAmong (· != .subset)) (t : Taken) :
    subsets e t = (e, t) := by
  induction e generalizing t with
  | var i | constant c => rfl
  | relation r a b iha ihb =>
    simp only [relationsAmong, Bool.and_eq_true] at he
    have ha := iha he.2.1 t
    have hb := ihb he.2.2 t
    cases r with
    | subset => cases he.1
    | _ => exact (draws_bind ha).trans (draws_bind hb)
  | negation a ih | quantified q x a ih | unary k a ih => exact draws_bind (ih he t)
  | connective c a b iha ihb | binary k a b iha ihb | comprehension x a b iha ihb =>
    simp only [relationsAmong, Bool.and_eq_true] at he
    exact (draws_bind (iha he.1 t)).trans (draws_bind (ihb he.2 t))

end Elimination

open Elimination

/-! ## The normal form -/

/-- What is left after elimination: no letters, no negated relations and no subset relations if their
switches are on, and outside the domains of comprehensions no operand that is to be eliminated. -/
structure IsNormal (s : Switches) (e : Expr) : Prop where
  letters : s .letters → ∀ i ∈ e.occurrences, isLetter i = false
  negatedRelations : s .negatedRelations → e.relationsAmong (!·.isNegated)
  subset : s .subset → e.relationsAmong (· != .subset)
  operators : e.isUnfolded (targeted s)
  constants : e.isUnfolded (targetedConstant s)

variable {s : Switches} {depth : Nat} {e e' : Expr}

/-- No pass changes a tree in normal form. -/
theorem IsNormal.run_eq (he : IsNormal s e) (hdepth : e.height < depth) (p : Pass) :
    p.run s depth e (Taken.ofExpr e) = some (e, Taken.ofExpr e) := by
  have hheight : Unfolding.requireHeight depth e (Taken.ofExpr e) = some ((), Taken.ofExpr e) :=
    Unfolding.requireHeight_eq_some.2 ⟨Nat.le_of_lt hdepth, rfl⟩
  cases p with
  | letters =>
    rw [Pass.run]
    split
    · rename_i on
      have hempty : (lettersOf (Taken.ofExpr e)).isEmpty := by
        rw [List.isEmpty_iff, List.eq_nil_iff_forall_not_mem]
        intro a ha
        obtain ⟨hmem, hletter⟩ := mem_lettersOf.1 ha
        rw [Taken.ofExpr, Taken.mem_ofList, List.mem_map] at hmem
        obtain ⟨i, hi, rfl⟩ := hmem
        rw [Int.ofNat_eq_natCast, he.letters on i hi] at hletter
        cases hletter
      rw [letters_apply, if_pos hempty]
    · rfl
  | negatedRelations =>
    rw [Pass.run]
    split
    · rename_i on
      rw [negatedRelations_of_relationsAmong (he.negatedRelations on)]
      exact Unfolding.bind_eq_some.2 ⟨(), _, hheight, rfl⟩
    · rfl
  | subset =>
    rw [Pass.run]
    split
    · rename_i on
      refine Unfolding.bind_eq_some.2 ⟨(), _, hheight, ?_⟩
      rw [Unfolding.ofState, subsets_of_relationsAmong (he.subset on)]
    · rfl
  | operators =>
    rw [Pass.run, operatorsIfOn]
    split
    · exact operators_of_isUnfolded he.operators hdepth _
    · rfl
  | constants =>
    rw [Pass.run]
    split
    · exact constants_of_isUnfolded he.constants hdepth _
    · rfl

theorem IsNormal.runAll_eq (he : IsNormal s e) (hdepth : e.height < depth) (ps : List Pass) :
    (Pass.runAll s depth ps e (Taken.ofExpr e)).2 = some e := by
  induction ps with
  | nil => rfl
  | cons p ps ih =>
    rw [Pass.runAll_cons_snd, he.run_eq hdepth p]
    exact ih

/-- Elimination leaves a tree in normal form alone. -/
theorem eliminate_of_isNormal (he : IsNormal s e) (hdepth : e.height < depth) :
    eliminate s depth e = some e :=
  he.runAll_eq hdepth Pass.all

/-- The result of elimination is in normal form, if no number that is drawn is that of a letter. -/
theorem isNormal_of_eliminate (h : eliminate s depth e = some e')
    (hdrawn : ∀ i ∈ drawnNumbers s depth e, isLetter i = false) : IsNormal s e' := by
  have hletters (on : s .letters) : ∀ i ∈ e'.occurrences, isLetter i = false := by
    intro i hi
    rcases occurrences_of_eliminate h hi with ⟨-, hletter⟩ | hmem
    · exact hletter on
    · exact hdrawn i hmem
  rw [eliminate, eliminationSteps, Pass.all] at h
  simp only [Pass.runAll_cons_snd, Option.bind_eq_some_iff, Prod.exists] at h
  obtain ⟨e₁, t₁, -, e₂, t₂, hnegated, e₃, t₃, hsubset, e₄, t₄, hoperators, e₅, t₅,
    hconstants, h⟩ := h
  cases h
  refine ⟨hletters, fun on => ?_, fun on => ?_, ?_, ?_⟩
  · have hadmits : Admits s (!·.isNegated) := ⟨rfl, rfl, .inr rfl⟩
    have h₂ := Pass.run_negatedRelations_relationsAmong on hnegated
    have h₃ := Pass.run_subset_keeps_relationsAmong rfl h₂ hsubset
    have h₄ := operatorsIfOn_relationsAmong hadmits h₃ hoperators
    exact Pass.run_constants_relationsAmong hadmits h₄ hconstants
  · have hadmits : Admits s (· != .subset) := ⟨rfl, rfl, .inl on⟩
    have h₂ : e₂.relationsAmong fun r => r == .subset || r != .subset :=
      Expr.relationsAmong_of_forall (by rintro ⟨⟩ <;> rfl) e₂
    have h₃ := Pass.run_subset_relationsAmong on rfl h₂ hsubset
    have h₄ := operatorsIfOn_relationsAmong hadmits h₃ hoperators
    exact Pass.run_constants_relationsAmong hadmits h₄ hconstants
  · have h₄ := operatorsIfOn_isUnfolded hoperators
    rw [Pass.run] at hconstants
    split at hconstants
    · exact constants_keeps_isUnfolded h₄ hconstants
    · cases hconstants
      exact h₄
  · rw [Pass.run] at hconstants
    split at hconstants
    · exact constants_isUnfolded hconstants
    · rename_i off
      exact Expr.isUnfolded_of_forall_not (targetedConstant_eq_false_of_not_touches off) _

/-- **Elimination is idempotent**, whatever the switches. If no number that is drawn reaches the
indices of letters, a second elimination returns the result of the first: it does so as soon as the
levels exceed those of the tree, and with fewer levels it can only give up. -/
theorem eliminate_idempotent (s : Switches) (depth : Nat) (e e' : Expr)
    (h : eliminate s depth e = some e') (hdrawn : ∀ i ∈ drawnNumbers s depth e, i < letterStart) :
    (∀ depth', e'.height < depth' → eliminate s depth' e' = some e') ∧
      ∀ depth' e'', eliminate s depth' e' = some e'' → e'' = e' := by
  have hnormal := isNormal_of_eliminate h fun i hi => isLetter_of_lt (hdrawn i hi)
  refine ⟨fun depth' => eliminate_of_isNormal hnormal, fun depth' e'' h' => ?_⟩
  have hmore := Pass.runAll_extends Pass.all (Nat.le_max_left depth' (e'.height + 1)) h'
  have hself : eliminate s (max depth' (e'.height + 1)) e' = some e' :=
    eliminate_of_isNormal hnormal (Nat.le_max_right _ _)
  exact Option.some.inj (hmore.symm.trans hself)

open SetFormula.Expr

/-- All switches on but those for comprehensions, the union and the empty set. -/
def keepSeparation : Switches := Switches.allOn.turnOff [.comprehension, .union, .emptySet]

/-- The formula `{x ∈ Pot(ω) | x ⊈ {ω}} ∪ y ≠ ω`. -/
def unionNotOmega : Expr :=
  relation .notEqual
    (binary .union
      (comprehension (indexOfLetter 'x') (unary .powerSet (constant .omega))
        (relation .notSubset (var (indexOfLetter 'x')) (unary .singleton (constant .omega))))
      (var (indexOfLetter 'y')))
    (constant .omega)

/-- Comprehensions, the union and the empty set are kept, and so is the power set in the domain of the
comprehension, but all else is eliminated. The result is stable and not primitive. -/
theorem eliminate_idempotent_union :
    ∃ e', eliminate keepSeparation 60 unionNotOmega = some e' ∧ e' ≠ unionNotOmega ∧
      e'.isPrimitive true = false ∧ ∀ depth', e'.height < depth' →
        eliminate keepSeparation depth' e' = some e' := by
  have hsome : (eliminate keepSeparation 60 unionNotOmega).isSome := by decide +kernel
  obtain ⟨e', he'⟩ := Option.isSome_iff_exists.1 hsome
  have hdrawn : ∀ i ∈ drawnNumbers keepSeparation 60 unionNotOmega, i < letterStart := by
    decide +kernel
  have hchanged : (eliminate keepSeparation 60 unionNotOmega).all
      fun e' => e' != unionNotOmega && !e'.isPrimitive true := by
    decide +kernel
  rw [he'] at hchanged
  simp only [Option.all_some, Bool.and_eq_true, bne_iff_ne, Bool.not_eq_true'] at hchanged
  exact ⟨e', he', hchanged.1, hchanged.2, (eliminate_idempotent _ _ _ _ he' hdrawn).1⟩

end SetFormula

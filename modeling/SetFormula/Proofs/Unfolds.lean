import SetFormula.Elimination.Pass
import SetFormula.Proofs.Allocation

/-!
# What the elimination passes do

`Unfolds s e t e' t'` says that `e`, with the numbers `t` taken, becomes `e'`, with the numbers `t'`
taken, by rules that the switches `s` allow. A rule applies anywhere in a tree, so the relation is
closed under the constructors.

* `Rewrites` lists the rules that bind no new variable, and `Introduces` those that bind a fresh
  one.
* All passes but the first stay inside the relation (`operators_unfolds`, `constants_unfolds`,
  `Pass.run_unfolds`), whatever their depth and the numbers taken. What holds of every rule and is
  kept by the constructors therefore holds of the passes.
-/

namespace SetFormula

/-! ## Steps that draw and may give up -/

namespace Unfolding

theorem bind_eq_some {α β : Type} {x : Unfolding α} {f : α → Unfolding β} {t : Taken}
    {r : β × Taken} :
    (x >>= f) t = some r ↔ ∃ a t₁, x t = some (a, t₁) ∧ f a t₁ = some r := by
  change (x t).bind (fun p => f p.1 p.2) = some r ↔ _
  rw [Option.bind_eq_some_iff, Prod.exists]

theorem pure_eq_some {α : Type} {a b : α} {t t' : Taken} :
    (pure a : Unfolding α) t = some (b, t') ↔ a = b ∧ t = t' := by
  change some (a, t) = some (b, t') ↔ _
  rw [Option.some.injEq, Prod.mk.injEq]

theorem fresh_eq_some {t t' : Taken} {y : Nat} :
    fresh t = some (y, t') ↔ t.fresh.1 = y ∧ t.fresh.2 = t' := by
  rw [fresh, Option.some.injEq, Prod.ext_iff]

theorem ofState_eq_some {α : Type} {step : StateM Taken α} {a : α} {t t' : Taken} :
    ofState step t = some (a, t') ↔ (step t).1 = a ∧ (step t).2 = t' := by
  rw [ofState, Option.some.injEq, Prod.ext_iff]

end Unfolding

/-! ## The rules -/

/-- Whether the members of a term are described one by one, by a formula on the member: the unions,
intersections and differences and the pair set. -/
def Expr.isMemberwise : Expr → Bool
  | unary .bigUnion _ | unary .bigIntersection _ | binary _ _ _ => true
  | _ => false

namespace Elimination

open SetFormula.Expr

/-- The term is an operator, a comprehension or a constant that is to be eliminated. -/
def Targets (s : Switches) (e : Expr) : Prop := targeted s e = true ∨ targetedConstant s e = true

/-- The rules that bind no new variable. An equality may be read from either side. -/
inductive Rewrites (s : Switches) : Expr → Expr → Prop
  | negated {r : Relation} (on : s .negatedRelations) (hr : r.isNegated) (a b : Expr) :
    Rewrites s (relation r a b) (negation (relation r.positive a b))
  | swap (a b : Expr) : Rewrites s (eq a b) (eq b a)
  | comprehension {x : Nat} {d b : Expr} (on : s .comprehension) (hb : x ∉ b.occurrences)
      (hd : x ∉ d.occurrences) (p : Expr) :
    Rewrites s (eq (comprehension x d p) b)
      (all x (iff (mem (var x) b) (conj (mem (var x) d) p)))
  | intersection (on : s .intersection) (a b c : Expr) :
    Rewrites s (mem a (binary .intersection b c)) (conj (mem a b) (mem a c))
  | difference (on : s .difference) (a b c : Expr) :
    Rewrites s (mem a (binary .difference b c)) (conj (mem a b) (negation (mem a c)))
  | union (on : s .union) (a b c : Expr) :
    Rewrites s (mem a (binary .union b c)) (disj (mem a b) (mem a c))
  | pairSet (on : s .pairSet) (a b c : Expr) :
    Rewrites s (mem a (binary .pairSet b c)) (disj (eq a b) (eq a c))

/-- The rules that bind the variable `y`. -/
inductive Introduces (s : Switches) (y : Nat) : Expr → Expr → Prop
  | subset (on : s .subset) (a b : Expr) :
    Introduces s y (sub a b) (all y (imp (mem (var y) a) (mem (var y) b)))
  | singleton (on : s .singleton) (a : Expr) :
    Introduces s y (unary .singleton a) (comprehension y (unary .powerSet a) (eq (var y) a))
  | sameMembers {a b : Expr}
      (on : (targeted s a ∧ a.isMemberwise) ∨ (targeted s b ∧ b.isMemberwise)) :
    Introduces s y (eq a b) (all y (iff (mem (var y) a) (mem (var y) b)))
  | powerSet (on : s .powerSet) (a b : Expr) :
    Introduces s y (eq (unary .powerSet a) b) (all y (iff (mem (var y) b) (sub (var y) a)))
  | comprehension (on : s .comprehension) (x : Nat) (d p b : Expr) :
    Introduces s y (eq (comprehension x d p) b)
      (all y (iff (mem (var y) b) (conj (mem (var y) d) (p.renameFree x y))))
  | bigIntersection (on : s .bigIntersection) (a f : Expr) :
    Introduces s y (mem a (unary .bigIntersection f))
      (conj (negation (eq f empty)) (all y (imp (mem (var y) f) (mem a (var y)))))
  | bigUnion (on : s .bigUnion) (a f : Expr) :
    Introduces s y (mem a (unary .bigUnion f)) (ex y (conj (mem (var y) f) (mem a (var y))))
  | memberOfNamed {e : Expr} (on : Targets s e) (he : e.isMemberwise = false) (a : Expr) :
    Introduces s y (mem a e) (ex y (conj (eq e (var y)) (mem a (var y))))
  | namedMemberOf {e : Expr} (on : Targets s e) (b : Expr) :
    Introduces s y (mem e b) (ex y (conj (eq e (var y)) (mem (var y) b)))
  | emptySet (on : s .emptySet) (a : Expr) :
    Introduces s y (eq a empty) (negation (ex y (mem (var y) a)))
  | omega (on : s .omega) (a : Expr) :
    Introduces s y (eq a (constant .omega))
      (conj (mem empty a) (all y (imp (mem (var y) a)
        (mem (binary .union (var y) (unary .singleton (var y))) a))))

/-- The tree `e`, with the numbers `t` taken, becomes `e'`, with the numbers `t'` taken, by rules
that are applied anywhere in it. Fresh variables are drawn from left to right. -/
inductive Unfolds (s : Switches) : Expr → Taken → Expr → Taken → Prop
  | refl (e : Expr) (t : Taken) : Unfolds s e t e t
  | trans {e e₁ e' : Expr} {t t₁ t' : Taken} (h₁ : Unfolds s e t e₁ t₁)
      (h₂ : Unfolds s e₁ t₁ e' t') : Unfolds s e t e' t'
  | rewrite {e e' : Expr} (h : Rewrites s e e') (t : Taken) : Unfolds s e t e' t
  | introduce {e e' : Expr} {t : Taken} (h : Introduces s t.fresh.1 e e') :
    Unfolds s e t e' t.fresh.2
  | relation (r : Relation) {a b a' b' : Expr} {t t₁ t₂ : Taken} (ha : Unfolds s a t a' t₁)
      (hb : Unfolds s b t₁ b' t₂) : Unfolds s (relation r a b) t (relation r a' b') t₂
  | negation {a a' : Expr} {t t₁ : Taken} (ha : Unfolds s a t a' t₁) :
    Unfolds s (negation a) t (negation a') t₁
  | connective (c : Connective) {a b a' b' : Expr} {t t₁ t₂ : Taken} (ha : Unfolds s a t a' t₁)
      (hb : Unfolds s b t₁ b' t₂) : Unfolds s (connective c a b) t (connective c a' b') t₂
  | quantified (q : Quantifier) (x : Nat) {a a' : Expr} {t t₁ : Taken}
      (ha : Unfolds s a t a' t₁) : Unfolds s (quantified q x a) t (quantified q x a') t₁
  | unary (k : UnaryOperator) {a a' : Expr} {t t₁ : Taken} (ha : Unfolds s a t a' t₁) :
    Unfolds s (unary k a) t (unary k a') t₁
  | binary (k : BinaryOperator) {a b a' b' : Expr} {t t₁ t₂ : Taken} (ha : Unfolds s a t a' t₁)
      (hb : Unfolds s b t₁ b' t₂) : Unfolds s (binary k a b) t (binary k a' b') t₂
  | comprehension (x : Nat) {d p d' p' : Expr} {t t₁ t₂ : Taken} (hd : Unfolds s d t d' t₁)
      (hp : Unfolds s p t₁ p' t₂) :
    Unfolds s (comprehension x d p) t (comprehension x d' p') t₂

variable {s : Switches}

/-! ## Negated relations and subset -/

theorem negatedRelations_unfolds (on : s .negatedRelations) (e : Expr) (t : Taken) :
    Unfolds s e t (negatedRelations e) t := by
  induction e generalizing t with
  | var i => exact .refl _ _
  | constant c => exact .refl _ _
  | relation r a b iha ihb =>
    have hab : Unfolds s (relation r a b) t
        (relation r (negatedRelations a) (negatedRelations b)) t := .relation r (iha t) (ihb t)
    rw [negatedRelations]
    split
    · rename_i hr
      exact hab.trans (.rewrite (.negated on hr _ _) t)
    · rename_i hr
      have hpos : r.positive = r := by cases r <;> simp_all [Relation.positive, Relation.isNegated]
      rw [hpos]
      exact hab
  | negation a ih => exact .negation (ih t)
  | connective c a b iha ihb => exact .connective c (iha t) (ihb t)
  | quantified q x a ih => exact .quantified q x (ih t)
  | unary k a ih => exact .unary k (ih t)
  | binary k a b iha ihb => exact .binary k (iha t) (ihb t)
  | comprehension x d p ihd ihp => exact .comprehension x (ihd t) (ihp t)

theorem subsets_unfolds (on : s .subset) (e : Expr) (t : Taken) :
    Unfolds s e t (subsets e t).1 (subsets e t).2 := by
  induction e generalizing t with
  | var i => exact .refl _ _
  | constant c => exact .refl _ _
  | relation r a b iha ihb =>
    cases r with
    | subset =>
      -- the rule comes first, then the operands below the new quantifier
      refine (Unfolds.introduce (.subset on a b)).trans (.quantified _ _ ?_)
      exact .connective _ (.relation _ (.refl _ _) (iha _)) (.relation _ (.refl _ _) (ihb _))
    | _ => exact .relation _ (iha t) (ihb _)
  | negation a ih => exact .negation (ih t)
  | connective c a b iha ihb => exact .connective c (iha t) (ihb _)
  | quantified q x a ih => exact .quantified q x (ih t)
  | unary k a ih => exact .unary k (ih t)
  | binary k a b iha ihb => exact .binary k (iha t) (ihb _)
  | comprehension x d p ihd ihp => exact .comprehension x (ihd t) (ihp _)

/-! ## Operators and comprehensions -/

theorem unfoldSingleton_unfolds {e e' : Expr} {t t' : Taken}
    (h : unfoldSingleton s e t = some (e', t')) : Unfolds s e t e' t' := by
  unfold unfoldSingleton at h
  split at h
  · split at h
    · rename_i a on
      cases h
      exact .introduce (.singleton on a)
    · cases h
      exact .refl _ _
  · cases h
    exact .refl _ _

theorem powerSetEquality_unfolds (on : s .powerSet) {a b e' : Expr} {t t' : Taken}
    (h : powerSetEquality s a b t = some (e', t')) :
    Unfolds s (eq (.unary .powerSet a) b) t e' t' := by
  have hdef : Unfolds s (eq (.unary .powerSet a) b) t _ t.fresh.2 := .introduce (.powerSet on a b)
  obtain ⟨y, t₁, hy, h⟩ := Unfolding.bind_eq_some.1 h
  obtain ⟨rfl, rfl⟩ := Unfolding.fresh_eq_some.1 hy
  split at h
  · rename_i hsub
    cases h
    exact hdef.trans (subsets_unfolds hsub _ _)
  · cases h
    exact hdef

theorem comprehensionEquality_unfolds (on : s .comprehension) {x : Nat} {d p b e' : Expr}
    {t t' : Taken} (h : comprehensionEquality x d p b t = some (e', t')) :
    Unfolds s (eq (.comprehension x d p) b) t e' t' := by
  unfold comprehensionEquality at h
  split at h
  · cases h
    exact .introduce (.comprehension on x d p b)
  · rename_i hx
    cases h
    simp only [Bool.or_eq_true, List.contains_iff_mem, not_or] at hx
    exact .rewrite (.comprehension on hx.1 hx.2 p) t

/-- A term that is to be eliminated, with singletons unfolded, is a power set, a comprehension, or
described member by member. -/
theorem isMemberwise_of_targeted {e : Expr} (on : targeted s e)
    (hsingle : ∀ a, e = .unary .singleton a → s .singleton = false)
    (hpower : ∀ a, e ≠ .unary .powerSet a) (hcompr : ∀ x d p, e ≠ .comprehension x d p) :
    e.isMemberwise := by
  cases e with
  | unary k a =>
    cases k with
    | singleton =>
      rw [targeted, UnaryOperator.switch, hsingle a rfl] at on
      cases on
    | powerSet => exact absurd rfl (hpower a)
    | bigUnion | bigIntersection => rfl
  | binary k a b => rfl
  | comprehension x d p => exact absurd rfl (hcompr x d p)
  | _ => cases on

theorem equalityOf_unfolds {left right term other e' : Expr} {t t' : Taken}
    (hsides : (term = left ∧ other = right) ∨ (term = right ∧ other = left))
    (on : targeted s term) (hsingle : ∀ a, term = .unary .singleton a → s .singleton = false)
    (h : equalityOf s left right term other t = some (e', t')) :
    Unfolds s (eq left right) t e' t' := by
  have hswap : Unfolds s (eq left right) t (eq term other) t := by
    rcases hsides with ⟨rfl, rfl⟩ | ⟨rfl, rfl⟩
    · exact .refl _ _
    · exact .rewrite (.swap _ _) t
  unfold equalityOf at h
  split at h
  · exact hswap.trans (powerSetEquality_unfolds on h)
  · exact hswap.trans (comprehensionEquality_unfolds on h)
  · rename_i hpower hcompr
    have hmw := isMemberwise_of_targeted on hsingle hpower hcompr
    cases h
    refine .introduce (.sameMembers ?_)
    rcases hsides with ⟨rfl, -⟩ | ⟨rfl, -⟩
    · exact .inl ⟨on, hmw⟩
    · exact .inr ⟨on, hmw⟩

theorem equalityRule_unfolds {left right e' : Expr} {t t' : Taken}
    (hl : ∀ a, left = .unary .singleton a → s .singleton = false)
    (hr : ∀ a, right = .unary .singleton a → s .singleton = false)
    (h : equalityRule s left right t = some (e', t')) : Unfolds s (eq left right) t e' t' := by
  unfold equalityRule at h
  split at h
  · rename_i on
    exact equalityOf_unfolds (.inl ⟨rfl, rfl⟩) on hl h
  · split at h
    · rename_i on
      exact equalityOf_unfolds (.inr ⟨rfl, rfl⟩) on hr h
    · cases h
      exact .refl _ _

theorem memberOf_unfolds {a e e' : Expr} {t t' : Taken} (on : targeted s e)
    (h : memberOf a e t = some (e', t')) : Unfolds s (mem a e) t e' t' := by
  unfold memberOf at h
  split at h
  · cases h
    exact .introduce (.bigIntersection on a _)
  · cases h
    exact .introduce (.bigUnion on a _)
  · cases h
    exact .rewrite (.intersection on a _ _) t
  · cases h
    exact .rewrite (.difference on a _ _) t
  · cases h
    exact .rewrite (.union on a _ _) t
  · cases h
    exact .rewrite (.pairSet on a _ _) t
  · rename_i hinter hunion h₁ h₂ h₃ h₄
    have hmw : e.isMemberwise = false := by
      cases e with
      | unary k f =>
        cases k with
        | bigUnion => exact absurd rfl (hunion f)
        | bigIntersection => exact absurd rfl (hinter f)
        | singleton | powerSet => rfl
      | binary k b c =>
        cases k with
        | intersection => exact absurd rfl (h₁ b c)
        | difference => exact absurd rfl (h₂ b c)
        | union => exact absurd rfl (h₃ b c)
        | pairSet => exact absurd rfl (h₄ b c)
      | _ => rfl
    cases h
    exact .introduce (.memberOfNamed (.inl on) hmw a)

theorem membershipRule_unfolds {left right e' : Expr} {t t' : Taken}
    (h : membershipRule s left right t = some (e', t')) : Unfolds s (mem left right) t e' t' := by
  unfold membershipRule at h
  split at h
  · rename_i on
    exact memberOf_unfolds on h
  · split at h
    · rename_i on
      cases h
      exact .introduce (.namedMemberOf (.inl on) right)
    · cases h
      exact .refl _ _

theorem not_singleton_of_unfoldSingleton {e e' : Expr} {t t' : Taken}
    (h : unfoldSingleton s e t = some (e', t')) :
    ∀ a, e' = .unary .singleton a → s .singleton = false := by
  intro a ha
  unfold unfoldSingleton at h
  split at h
  · split at h
    · cases h
      cases ha
    · rename_i off
      simpa using off
  · rename_i hne
    cases h
    exact absurd ha (hne a)

theorem operatorRule_unfolds {e e' : Expr} {t t' : Taken}
    (h : operatorRule s e t = some (e', t')) : Unfolds s e t e' t' := by
  unfold operatorRule at h
  split at h
  · exact unfoldSingleton_unfolds h
  · obtain ⟨a, t₁, ha, h⟩ := Unfolding.bind_eq_some.1 h
    obtain ⟨b, t₂, hb, h⟩ := Unfolding.bind_eq_some.1 h
    refine .trans (.relation _ (unfoldSingleton_unfolds ha) (unfoldSingleton_unfolds hb)) ?_
    exact equalityRule_unfolds (not_singleton_of_unfoldSingleton ha)
      (not_singleton_of_unfoldSingleton hb) h
  · obtain ⟨a, t₁, ha, h⟩ := Unfolding.bind_eq_some.1 h
    obtain ⟨b, t₂, hb, h⟩ := Unfolding.bind_eq_some.1 h
    refine .trans (.relation _ (unfoldSingleton_unfolds ha) (unfoldSingleton_unfolds hb)) ?_
    exact membershipRule_unfolds h
  · cases h
    exact .refl _ _

/-- A step that stays inside the relation may be applied to the children of a node. -/
theorem mapChildren_unfolds {step : Expr → Unfolding Expr}
    (hstep : ∀ e t e' t', step e t = some (e', t') → Unfolds s e t e' t') {e e' : Expr}
    {t t' : Taken} (h : Unfolding.mapChildren step e t = some (e', t')) : Unfolds s e t e' t' := by
  cases e with
  | var i => cases h; exact .refl _ _
  | constant c => cases h; exact .refl _ _
  | relation r a b =>
    obtain ⟨a', t₁, ha, h⟩ := Unfolding.bind_eq_some.1 h
    obtain ⟨b', t₂, hb, h⟩ := Unfolding.bind_eq_some.1 h
    cases h
    exact .relation r (hstep _ _ _ _ ha) (hstep _ _ _ _ hb)
  | negation a =>
    obtain ⟨a', t₁, ha, h⟩ := Unfolding.bind_eq_some.1 h
    cases h
    exact .negation (hstep _ _ _ _ ha)
  | connective c a b =>
    obtain ⟨a', t₁, ha, h⟩ := Unfolding.bind_eq_some.1 h
    obtain ⟨b', t₂, hb, h⟩ := Unfolding.bind_eq_some.1 h
    cases h
    exact .connective c (hstep _ _ _ _ ha) (hstep _ _ _ _ hb)
  | quantified q x a =>
    obtain ⟨a', t₁, ha, h⟩ := Unfolding.bind_eq_some.1 h
    cases h
    exact .quantified q x (hstep _ _ _ _ ha)
  | unary k a =>
    obtain ⟨a', t₁, ha, h⟩ := Unfolding.bind_eq_some.1 h
    cases h
    exact .unary k (hstep _ _ _ _ ha)
  | binary k a b =>
    obtain ⟨a', t₁, ha, h⟩ := Unfolding.bind_eq_some.1 h
    obtain ⟨b', t₂, hb, h⟩ := Unfolding.bind_eq_some.1 h
    cases h
    exact .binary k (hstep _ _ _ _ ha) (hstep _ _ _ _ hb)
  | comprehension x d p =>
    obtain ⟨d', t₁, hd, h⟩ := Unfolding.bind_eq_some.1 h
    obtain ⟨p', t₂, hp, h⟩ := Unfolding.bind_eq_some.1 h
    cases h
    exact .comprehension x (hstep _ _ _ _ hd) (hstep _ _ _ _ hp)

/-- Apply a step below the root of a tree: to the predicate of a comprehension, or to all children
of another node. -/
def descend (step : Expr → Unfolding Expr) : Expr → Unfolding Expr
  | .comprehension x d p => return .comprehension x d (← step p)
  | e => Unfolding.mapChildren step e

theorem operators_succ (s : Switches) (depth : Nat) (e : Expr) :
    operators s (depth + 1) e = operatorRule s e >>= descend (operators s depth) := rfl

theorem constants_succ (s : Switches) (depth : Nat) (e : Expr) :
    constants s (depth + 1) e = constantRule s depth e >>= descend (constants s depth) := rfl

theorem descend_unfolds {step : Expr → Unfolding Expr}
    (hstep : ∀ e t e' t', step e t = some (e', t') → Unfolds s e t e' t') {e e' : Expr}
    {t t' : Taken} (h : descend step e t = some (e', t')) : Unfolds s e t e' t' := by
  unfold descend at h
  split at h
  · obtain ⟨p', t₁, hp, h⟩ := Unfolding.bind_eq_some.1 h
    cases h
    exact .comprehension _ (.refl _ _) (hstep _ _ _ _ hp)
  · exact mapChildren_unfolds hstep h

/-- The second tree has the root of the first, and what a pass visits below the roots is related by
`R`. The domain of a comprehension is not visited and stays. -/
inductive Below (R : Expr → Expr → Prop) : Expr → Expr → Prop
  | var (i : Nat) : Below R (.var i) (.var i)
  | constant (c : Constant) : Below R (.constant c) (.constant c)
  | relation (r : Relation) {a b a' b' : Expr} (ha : R a a') (hb : R b b') :
    Below R (.relation r a b) (.relation r a' b')
  | negation {a a' : Expr} (ha : R a a') : Below R (.negation a) (.negation a')
  | connective (c : Connective) {a b a' b' : Expr} (ha : R a a') (hb : R b b') :
    Below R (.connective c a b) (.connective c a' b')
  | quantified (q : Quantifier) (x : Nat) {a a' : Expr} (ha : R a a') :
    Below R (.quantified q x a) (.quantified q x a')
  | unary (k : UnaryOperator) {a a' : Expr} (ha : R a a') : Below R (.unary k a) (.unary k a')
  | binary (k : BinaryOperator) {a b a' b' : Expr} (ha : R a a') (hb : R b b') :
    Below R (.binary k a b) (.binary k a' b')
  | comprehension (x : Nat) (d : Expr) {p p' : Expr} (hp : R p p') :
    Below R (.comprehension x d p) (.comprehension x d p')

/-- What a step below the root does to the tree, whatever numbers are taken. -/
theorem descend_below {step : Expr → Unfolding Expr} {e e' : Expr} {t t' : Taken}
    (h : descend step e t = some (e', t')) :
    Below (fun a a' => ∃ t t', step a t = some (a', t')) e e' := by
  cases e with
  | var i => cases h; exact .var i
  | constant c => cases h; exact .constant c
  | relation r a b =>
    obtain ⟨a', t₁, ha, h⟩ := Unfolding.bind_eq_some.1 h
    obtain ⟨b', t₂, hb, h⟩ := Unfolding.bind_eq_some.1 h
    cases h
    exact .relation r ⟨_, _, ha⟩ ⟨_, _, hb⟩
  | negation a =>
    obtain ⟨a', t₁, ha, h⟩ := Unfolding.bind_eq_some.1 h
    cases h
    exact .negation ⟨_, _, ha⟩
  | connective c a b =>
    obtain ⟨a', t₁, ha, h⟩ := Unfolding.bind_eq_some.1 h
    obtain ⟨b', t₂, hb, h⟩ := Unfolding.bind_eq_some.1 h
    cases h
    exact .connective c ⟨_, _, ha⟩ ⟨_, _, hb⟩
  | quantified q x a =>
    obtain ⟨a', t₁, ha, h⟩ := Unfolding.bind_eq_some.1 h
    cases h
    exact .quantified q x ⟨_, _, ha⟩
  | unary k a =>
    obtain ⟨a', t₁, ha, h⟩ := Unfolding.bind_eq_some.1 h
    cases h
    exact .unary k ⟨_, _, ha⟩
  | binary k a b =>
    obtain ⟨a', t₁, ha, h⟩ := Unfolding.bind_eq_some.1 h
    obtain ⟨b', t₂, hb, h⟩ := Unfolding.bind_eq_some.1 h
    cases h
    exact .binary k ⟨_, _, ha⟩ ⟨_, _, hb⟩
  | comprehension x d p =>
    obtain ⟨p', t₁, hp, h⟩ := Unfolding.bind_eq_some.1 h
    cases h
    exact .comprehension x d ⟨_, _, hp⟩

theorem operators_unfolds {depth : Nat} {e e' : Expr} {t t' : Taken}
    (h : operators s depth e t = some (e', t')) : Unfolds s e t e' t' := by
  induction depth generalizing e e' t t' with
  | zero => cases h
  | succ depth ih =>
    rw [operators_succ] at h
    obtain ⟨e₁, t₁, hrule, h⟩ := Unfolding.bind_eq_some.1 h
    exact (operatorRule_unfolds hrule).trans (descend_unfolds (fun _ _ _ _ => ih) h)

theorem operatorsIfOn_unfolds {depth : Nat} {e e' : Expr} {t t' : Taken}
    (h : operatorsIfOn s depth e t = some (e', t')) : Unfolds s e t e' t' := by
  unfold operatorsIfOn at h
  split at h
  · exact operators_unfolds h
  · cases h
    exact .refl _ _

/-! ## Constants -/

/-- What the rule for an equality does: nothing if neither side is a constant that is to be
eliminated, or else the rule for that constant and the other side. -/
theorem constantEqualityRule_cases {depth : Nat} {left right e' : Expr} {t t' : Taken}
    (h : constantEqualityRule s depth left right t = some (e', t')) :
    (e' = eq left right ∧ t' = t ∧ targetedConstant s left = false ∧
      targetedConstant s right = false) ∨
    ∃ c other, ((constant c = left ∧ other = right) ∨ (constant c = right ∧ other = left)) ∧
      ((c = .emptySet ∧ s .emptySet ∧ emptyEquality other t = some (e', t')) ∨
        (c = .omega ∧ s .omega ∧
          (omegaEquality other >>= operatorsIfOn s depth) t = some (e', t'))) := by
  unfold constantEqualityRule at h
  generalize hsides :
    (if targetedConstant s right then (right, left) else (left, right)) = sides at h
  obtain ⟨term, other⟩ := sides
  have hside : (term = left ∧ other = right) ∨ (term = right ∧ other = left) := by
    split at hsides
    · cases hsides
      exact .inr ⟨rfl, rfl⟩
    · cases hsides
      exact .inl ⟨rfl, rfl⟩
  have hkeep (hterm : targetedConstant s term = false) :
      targetedConstant s left = false ∧ targetedConstant s right = false := by
    split at hsides
    · rename_i on
      cases hsides
      rw [on] at hterm
      cases hterm
    · rename_i off
      cases hsides
      exact ⟨hterm, by simpa using off⟩
  cases term with
  | constant c =>
    cases c with
    | emptySet =>
      simp only at h
      split at h
      · rename_i on
        exact .inr ⟨.emptySet, other, hside, .inl ⟨rfl, on, h⟩⟩
      · rename_i off
        cases h
        exact .inl ⟨rfl, rfl, hkeep (by simpa [targetedConstant, Constant.switch] using off)⟩
    | omega =>
      simp only at h
      split at h
      · rename_i on
        exact .inr ⟨.omega, other, hside, .inr ⟨rfl, on, h⟩⟩
      · rename_i off
        cases h
        exact .inl ⟨rfl, rfl, hkeep (by simpa [targetedConstant, Constant.switch] using off)⟩
  | _ =>
    cases h
    exact .inl ⟨rfl, rfl, hkeep rfl⟩

theorem constantEqualityRule_unfolds {depth : Nat} {left right e' : Expr} {t t' : Taken}
    (h : constantEqualityRule s depth left right t = some (e', t')) :
    Unfolds s (eq left right) t e' t' := by
  rcases constantEqualityRule_cases h with ⟨rfl, rfl, -, -⟩ | ⟨c, other, hsides, hrule⟩
  · exact .refl _ _
  · have hread : Unfolds s (eq left right) t (eq other (.constant c)) t := by
      rcases hsides with ⟨rfl, rfl⟩ | ⟨rfl, rfl⟩
      · exact .rewrite (.swap _ _) t
      · exact .refl _ _
    rcases hrule with ⟨rfl, on, h⟩ | ⟨rfl, on, h⟩
    · cases h
      exact hread.trans (.introduce (.emptySet on other))
    · obtain ⟨e₁, t₁, hω, h⟩ := Unfolding.bind_eq_some.1 h
      cases hω
      exact (hread.trans (.introduce (.omega on other))).trans (operatorsIfOn_unfolds h)

theorem constantMembershipRule_unfolds {left right e' : Expr} {t t' : Taken}
    (h : constantMembershipRule s left right t = some (e', t')) :
    Unfolds s (mem left right) t e' t' := by
  unfold constantMembershipRule at h
  split at h
  · rename_i on
    have hmw : right.isMemberwise = false := by
      cases right with
      | constant c => rfl
      | _ => cases on
    cases h
    exact .introduce (.memberOfNamed (.inr on) hmw left)
  · split at h
    · rename_i on
      cases h
      exact .introduce (.namedMemberOf (.inr on) right)
    · cases h
      exact .refl _ _

theorem constantRule_unfolds {depth : Nat} {e e' : Expr} {t t' : Taken}
    (h : constantRule s depth e t = some (e', t')) : Unfolds s e t e' t' := by
  cases e with
  | relation r a b =>
    cases r with
    | equality => exact constantEqualityRule_unfolds h
    | element => exact constantMembershipRule_unfolds h
    | _ =>
      cases h
      exact .refl _ _
  | _ =>
    cases h
    exact .refl _ _

theorem constants_unfolds {depth : Nat} {e e' : Expr} {t t' : Taken}
    (h : constants s depth e t = some (e', t')) : Unfolds s e t e' t' := by
  induction depth generalizing e e' t t' with
  | zero => cases h
  | succ depth ih =>
    rw [constants_succ] at h
    obtain ⟨e₁, t₁, hrule, h⟩ := Unfolding.bind_eq_some.1 h
    exact (constantRule_unfolds hrule).trans (descend_unfolds (fun _ _ _ _ => ih) h)

end Elimination

/-! ## Passes -/

namespace Unfolding

theorem requireHeight_eq_some {depth : Nat} {e : Expr} {t t' : Taken} :
    requireHeight depth e t = some ((), t') ↔ e.height ≤ depth ∧ t = t' := by
  unfold requireHeight
  split
  · rename_i hle
    rw [pure_eq_some]
    simp [hle]
  · rename_i hlt
    simp [giveUp, hlt]

end Unfolding

namespace Pass

open Elimination

variable {s : Switches}

theorem run_unfolds {p : Pass} (hp : p ≠ letters) {depth : Nat} {e e' : Expr} {t t' : Taken}
    (h : p.run s depth e t = some (e', t')) : Unfolds s e t e' t' := by
  cases p with
  | letters => exact absurd rfl hp
  | negatedRelations =>
    rw [run] at h
    split at h
    · rename_i on
      obtain ⟨⟨⟩, t₁, ht, h⟩ := Unfolding.bind_eq_some.1 h
      obtain ⟨-, rfl⟩ := Unfolding.requireHeight_eq_some.1 ht
      cases h
      exact negatedRelations_unfolds on e t
    · cases h
      exact .refl _ _
  | subset =>
    rw [run] at h
    split at h
    · rename_i on
      obtain ⟨⟨⟩, t₁, ht, h⟩ := Unfolding.bind_eq_some.1 h
      obtain ⟨-, rfl⟩ := Unfolding.requireHeight_eq_some.1 ht
      obtain ⟨rfl, rfl⟩ := Unfolding.ofState_eq_some.1 h
      exact subsets_unfolds on e t
    · cases h
      exact .refl _ _
  | operators => exact operatorsIfOn_unfolds h
  | constants =>
    rw [run] at h
    split at h
    · exact constants_unfolds h
    · cases h
      exact .refl _ _

/-- The result of passes one after the other, by the result of the first. -/
theorem runAll_cons_snd (s : Switches) (depth : Nat) (p : Pass) (ps : List Pass) (e : Expr)
    (t : Taken) :
    (runAll s depth (p :: ps) e t).2 =
      (p.run s depth e t).bind fun r => (runAll s depth ps r.1 r.2).2 := by
  rw [runAll]
  cases p.run s depth e t <;> rfl

theorem runAll_unfolds {ps : List Pass} (hps : letters ∉ ps) {depth : Nat} {e e' : Expr}
    {t : Taken} (h : (runAll s depth ps e t).2 = some e') : ∃ t', Unfolds s e t e' t' := by
  induction ps generalizing e t with
  | nil =>
    cases h
    exact ⟨t, .refl _ _⟩
  | cons p ps ih =>
    rw [List.mem_cons, not_or] at hps
    rw [runAll_cons_snd, Option.bind_eq_some_iff] at h
    obtain ⟨⟨e₁, t₁⟩, hrun, h⟩ := h
    obtain ⟨t', h'⟩ := ih hps.2 h
    exact ⟨t', (run_unfolds (Ne.symm hps.1) hrun).trans h'⟩

end Pass

/-- Elimination first renames the letters; all else it does stays inside the relation. -/
theorem eliminate_unfolds {s : Switches} {depth : Nat} {e e' : Expr}
    (h : eliminate s depth e = some e') :
    ∃ e₁ t₁ t', Pass.run s depth .letters e (Taken.ofExpr e) = some (e₁, t₁) ∧
      Elimination.Unfolds s e₁ t₁ e' t' := by
  rw [eliminate, eliminationSteps, Pass.all, Pass.runAll_cons_snd, Option.bind_eq_some_iff] at h
  obtain ⟨⟨e₁, t₁⟩, hrun, h⟩ := h
  obtain ⟨t', h'⟩ := Pass.runAll_unfolds (by decide) h
  exact ⟨e₁, t₁, t', hrun, h'⟩

end SetFormula

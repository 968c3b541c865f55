import SetFormula.Elimination.Operators

/-!
# Eliminating constants

* `x = ∅` becomes `¬∃y (y ∈ x)`.
* `x = ω` becomes `(∅ ∈ x ∧ ∀y (y ∈ x → y ∪ {y} ∈ x))`: the set is inductive, which does not say that
  it is the least such set. The operators of this formula are eliminated in turn.
* In a membership the constant is named by a variable first.
-/

namespace SetFormula.Elimination

open SetFormula.Expr

section Rules

variable (s : Switches)

/-- Whether a term is a constant that is to be eliminated. -/
def targetedConstant : Expr → Bool
  | constant c => s c.switch
  | _ => false

/-- The equality `A = ∅` as `¬∃y (y ∈ A)`. -/
def emptyEquality (a : Expr) : Unfolding Expr := do
  let y ← Unfolding.fresh
  return negation (ex y (mem (var y) a))

/-- The equality `A = ω` as `(∅ ∈ A ∧ ∀y (y ∈ A → y ∪ {y} ∈ A))`. -/
def omegaEquality (a : Expr) : Unfolding Expr := do
  let y ← Unfolding.fresh
  let successor := binary .union (var y) (unary .singleton (var y))
  return conj (mem empty a) (all y (imp (mem (var y) a) (mem successor a)))

/-- The rule for an equality: for its right side if that is a constant to be eliminated, else for its
left side. -/
def constantEqualityRule (depth : Nat) (left right : Expr) : Unfolding Expr :=
  match (if targetedConstant s right then (right, left) else (left, right)) with
  | (constant .emptySet, other) =>
    if s .emptySet then emptyEquality other else pure (eq left right)
  | (constant .omega, other) =>
    if s .omega then do operatorsIfOn s depth (← omegaEquality other) else pure (eq left right)
  | _ => pure (eq left right)

/-- The rule for a membership: for its right side if that is a constant to be eliminated, else for its
left side. -/
def constantMembershipRule (left right : Expr) : Unfolding Expr :=
  if targetedConstant s right then memberOfNamed left right
  else if targetedConstant s left then namedMemberOf left right
  else pure (mem left right)

/-- Apply the rule for the root of a tree, if there is one. -/
def constantRule (depth : Nat) : Expr → Unfolding Expr
  | relation .equality a b => constantEqualityRule s depth a b
  | relation .element a b => constantMembershipRule s a b
  | e => pure e

/-- Apply the rules throughout a tree, the root first, in at most `depth` levels. Of a comprehension,
only the predicate is visited. -/
def constants : Nat → Expr → Unfolding Expr
  | 0, _ => Unfolding.giveUp
  | depth + 1, e => do
    match ← constantRule s depth e with
    | comprehension x domain predicate =>
      return comprehension x domain (← constants depth predicate)
    | e => Unfolding.mapChildren (constants depth) e

end Rules

end SetFormula.Elimination

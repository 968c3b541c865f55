import SetFormula.Elimination.Relations
import SetFormula.Expr.Substitution

/-!
# Eliminating operators and comprehensions

The rules unfold an equality or a membership with an operator or a comprehension as a direct
operand. A singleton is first written as a comprehension. The variable that a rule binds is fresh, or
that of a comprehension.

* `operatorRule` applies the rule for the root, if there is one.
* `operators` applies the rules throughout, the root before its children, so what a rule introduces is
  unfolded too. Of a comprehension that remains, only the predicate is visited.
-/

namespace SetFormula.Elimination

open SetFormula.Expr

section Rules

variable (s : Switches)

/-- Whether a term is to be eliminated where it is an operand. -/
def targeted : Expr → Bool
  | unary k _ => s k.switch
  | binary k _ _ => s k.switch
  | comprehension _ _ _ => s .comprehension
  | _ => false

/-- The set `{A}` as `{y ∈ Pot(A) | y = A}`. -/
def singletonAsComprehension (a : Expr) : Unfolding Expr := do
  let y ← Unfolding.fresh
  return comprehension y (unary .powerSet a) (eq (var y) a)

/-- A singleton as a comprehension, if singletons are eliminated. -/
def unfoldSingleton : Expr → Unfolding Expr
  | unary .singleton a =>
    if s .singleton then singletonAsComprehension a else pure (unary .singleton a)
  | e => pure e

/-- The equality `A = B` by extensionality: `∀y (y ∈ A ↔ y ∈ B)`. -/
def sameMembers (a b : Expr) : Unfolding Expr := do
  let y ← Unfolding.fresh
  return all y (iff (mem (var y) a) (mem (var y) b))

/-- The equality `B = Pot(A)`: `∀y (y ∈ B ↔ y ⊆ A)`, in which subset relations are eliminated if
their switch is on. -/
def powerSetEquality (a b : Expr) : Unfolding Expr := do
  let y ← Unfolding.fresh
  let definition := all y (iff (mem (var y) b) (sub (var y) a))
  if s .subset then Unfolding.ofState (subsets definition) else return definition

/-- The equality `B = {x ∈ S | φ}`: `∀x (x ∈ B ↔ (x ∈ S ∧ φ))`, where `x` is renamed if it occurs in
`B` or `S`. -/
def comprehensionEquality (x : Nat) (domain predicate b : Expr) : Unfolding Expr := do
  if b.occurrences.contains x || domain.occurrences.contains x then
    let y ← Unfolding.fresh
    return all y (iff (mem (var y) b) (conj (mem (var y) domain) (predicate.renameFree x y)))
  else
    return all x (iff (mem (var x) b) (conj (mem (var x) domain) predicate))

/-- The rule for the equality of `term`, which is to be eliminated, and `other`; `left` and `right`
are the two in the order of the equality. -/
def equalityOf (left right term other : Expr) : Unfolding Expr :=
  match term with
  | unary .powerSet a => powerSetEquality s a other
  | comprehension x domain predicate => comprehensionEquality x domain predicate other
  | _ => sameMembers left right

/-- The rule for an equality: for its left side if that is to be eliminated, else for its right
side. -/
def equalityRule (left right : Expr) : Unfolding Expr :=
  if targeted s left then equalityOf s left right left right
  else if targeted s right then equalityOf s left right right left
  else pure (eq left right)

/-- The membership `A ∈ E` as `∃y (E = y ∧ A ∈ y)`. -/
def memberOfNamed (a e : Expr) : Unfolding Expr := do
  let y ← Unfolding.fresh
  return ex y (conj (eq e (var y)) (mem a (var y)))

/-- The membership `E ∈ B` as `∃y (E = y ∧ y ∈ B)`. -/
def namedMemberOf (e b : Expr) : Unfolding Expr := do
  let y ← Unfolding.fresh
  return ex y (conj (eq e (var y)) (mem (var y) b))

/-- The rule for a membership in a term that is to be eliminated. -/
def memberOf (a : Expr) : Expr → Unfolding Expr
  | unary .bigIntersection family => do
    let y ← Unfolding.fresh
    return conj (negation (eq family empty))
      (all y (imp (mem (var y) family) (mem a (var y))))
  | unary .bigUnion family => do
    let y ← Unfolding.fresh
    return ex y (conj (mem (var y) family) (mem a (var y)))
  | binary .intersection b c => return conj (mem a b) (mem a c)
  | binary .difference b c => return conj (mem a b) (negation (mem a c))
  | binary .union b c => return disj (mem a b) (mem a c)
  | binary .pairSet b c => return disj (eq a b) (eq a c)
  | e => memberOfNamed a e

/-- The rule for a membership: for its right side if that is to be eliminated, else for its left
side. -/
def membershipRule (left right : Expr) : Unfolding Expr :=
  if targeted s right then memberOf left right
  else if targeted s left then namedMemberOf left right
  else pure (mem left right)

/-- Apply the rule for the root of a tree, if there is one. -/
def operatorRule : Expr → Unfolding Expr
  | unary .singleton a => unfoldSingleton s (unary .singleton a)
  | relation .equality a b => do
    let a ← unfoldSingleton s a
    let b ← unfoldSingleton s b
    equalityRule s a b
  | relation .element a b => do
    let a ← unfoldSingleton s a
    let b ← unfoldSingleton s b
    membershipRule s a b
  | e => pure e

/-- Apply the rules throughout a tree, the root first, in at most `depth` levels. -/
def operators : Nat → Expr → Unfolding Expr
  | 0, _ => Unfolding.giveUp
  | depth + 1, e => do
    match ← operatorRule s e with
    | comprehension x domain predicate =>
      return comprehension x domain (← operators depth predicate)
    | e => Unfolding.mapChildren (operators depth) e

/-- Eliminate operators and comprehensions, if some of them are to be eliminated. -/
def operatorsIfOn (depth : Nat) (e : Expr) : Unfolding Expr :=
  if s.touchesOperators then operators s depth e else pure e

end Rules

end SetFormula.Elimination

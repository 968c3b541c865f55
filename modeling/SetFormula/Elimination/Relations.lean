import SetFormula.Elimination.Unfolding

/-!
# Eliminating negated relations and subset

* `negatedRelations` turns `A ≠ B` into `¬(A = B)`, and likewise `∉` and `⊈`.
* `subsets` turns `A ⊆ B` into `∀y (y ∈ A → y ∈ B)` with a fresh `y`.
-/

namespace SetFormula.Elimination

/-- Replace every negated relation by the negation of the positive one. -/
def negatedRelations : Expr → Expr
  | .var i => .var i
  | .constant c => .constant c
  | .relation r a b =>
    let positive := Expr.relation r.positive (negatedRelations a) (negatedRelations b)
    if r.isNegated then .negation positive else positive
  | .negation a => .negation (negatedRelations a)
  | .connective c a b => .connective c (negatedRelations a) (negatedRelations b)
  | .quantified q x a => .quantified q x (negatedRelations a)
  | .unary k a => .unary k (negatedRelations a)
  | .binary k a b => .binary k (negatedRelations a) (negatedRelations b)
  | .comprehension x s a => .comprehension x (negatedRelations s) (negatedRelations a)

/-- Draw a fresh variable. -/
def draw : StateM Taken Nat := fun t => t.fresh

/-- Replace every subset relation by its definition. The variable of a relation is drawn before those
inside its operands. -/
def subsets : Expr → StateM Taken Expr
  | .var i => pure (.var i)
  | .constant c => pure (.constant c)
  | .relation .subset a b => do
    let y ← draw
    let a ← subsets a
    let b ← subsets b
    return .all y (.imp (.mem (.var y) a) (.mem (.var y) b))
  | .relation r a b => return .relation r (← subsets a) (← subsets b)
  | .negation a => return .negation (← subsets a)
  | .connective c a b => return .connective c (← subsets a) (← subsets b)
  | .quantified q x a => return .quantified q x (← subsets a)
  | .unary k a => return .unary k (← subsets a)
  | .binary k a b => return .binary k (← subsets a) (← subsets b)
  | .comprehension x s a => return .comprehension x (← subsets s) (← subsets a)

end SetFormula.Elimination

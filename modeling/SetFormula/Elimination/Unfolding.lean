import SetFormula.Expr
import SetFormula.Switch
import SetFormula.Taken

/-!
# Unfolding steps

An unfolding step may draw fresh variables, and it may give up because a tree is nested too deeply.

* `mapChildren f e` applies a step to the children of a node, from left to right. The variable that
  a quantifier or a comprehension binds stays.
-/

namespace SetFormula

/-- A computation that draws fresh variables and may give up. -/
abbrev Unfolding (α : Type) := StateT Taken Option α

namespace Unfolding

/-- Draw a fresh variable. -/
def fresh : Unfolding Nat := fun t => some t.fresh

/-- Give up: the nesting is too deep. -/
def giveUp {α : Type} : Unfolding α := fun _ => none

/-- Run a step that never gives up. -/
def ofState {α : Type} (step : StateM Taken α) : Unfolding α := fun t => some (step t)

/-- Give up on a tree of more than `depth` levels. -/
def requireHeight (depth : Nat) (e : Expr) : Unfolding Unit :=
  if e.height ≤ depth then pure () else giveUp

/-- Apply a step to the children of a node, from left to right. -/
def mapChildren (step : Expr → Unfolding Expr) : Expr → Unfolding Expr
  | .var i => pure (.var i)
  | .constant c => pure (.constant c)
  | .relation r a b => return .relation r (← step a) (← step b)
  | .negation a => return .negation (← step a)
  | .connective c a b => return .connective c (← step a) (← step b)
  | .quantified q x a => return .quantified q x (← step a)
  | .unary k a => return .unary k (← step a)
  | .binary k a b => return .binary k (← step a) (← step b)
  | .comprehension x s a => return .comprehension x (← step s) (← step a)

end Unfolding

end SetFormula

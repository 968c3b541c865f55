import SetFormula.Elimination.Constants
import SetFormula.Elimination.Letters

/-!
# Elimination

A formula is brought into the primitive vocabulary (`∈`, `=`, connectives, quantifiers, variables)
in five passes. Each pass eliminates what its switches ask for and leaves the tree alone if they are
off.

* `Pass.run` is one pass.
* `eliminate` runs all of them, on taken numbers that start as the indices of the formula.
-/

namespace SetFormula

/-- The passes, in the order in which they run. -/
inductive Pass where
  | letters
  | negatedRelations
  | subset
  | operators
  | constants
  deriving DecidableEq, Repr

namespace Pass

/-- All passes, in the order in which they run. -/
def all : List Pass := [letters, negatedRelations, subset, operators, constants]

/-- The name of a pass. -/
def name : Pass → String
  | letters => "variables"
  | negatedRelations => "negated_relations"
  | subset => "subset"
  | operators => "operators"
  | constants => "constants"

/-- Run one pass, in at most `depth` levels of nesting. -/
def run (s : Switches) (depth : Nat) : Pass → Expr → Unfolding Expr
  | letters, e => if s .letters then Elimination.letters depth e else pure e
  | negatedRelations, e =>
    if s .negatedRelations then do
      Unfolding.requireHeight depth e
      return Elimination.negatedRelations e
    else pure e
  | subset, e =>
    if s .subset then do
      Unfolding.requireHeight depth e
      Unfolding.ofState (Elimination.subsets e)
    else pure e
  | operators, e => Elimination.operatorsIfOn s depth e
  | constants, e => if s.touchesConstants then Elimination.constants s depth e else pure e

/-- Run passes one after the other. The results of those that finish are listed, and the last result
is given if all of them do. -/
def runAll (s : Switches) (depth : Nat) :
    List Pass → Expr → Taken → List (Pass × Expr) × Option Expr
  | [], e, _ => ([], some e)
  | p :: ps, e, t =>
    match p.run s depth e t with
    | none => ([], none)
    | some (e, t) =>
      let (steps, result) := runAll s depth ps e t
      ((p, e) :: steps, result)

end Pass

/-- The result of each pass over a formula, as far as they finish, and the last one if all do. -/
def eliminationSteps (s : Switches) (depth : Nat) (e : Expr) : List (Pass × Expr) × Option Expr :=
  Pass.runAll s depth Pass.all e (Taken.ofExpr e)

/-- Eliminate from a formula what is switched on, in at most `depth` levels of nesting. -/
def eliminate (s : Switches) (depth : Nat) (e : Expr) : Option Expr := (eliminationSteps s depth e).2

end SetFormula

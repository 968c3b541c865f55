import SetFormula.Elimination.Unfolding
import SetFormula.Expr.Substitution

/-!
# Eliminating letters

Variables that are written as letters are renamed to the smallest numbers that are not in use, the
letters in the order of their code points, so all capitals before all small letters.
-/

namespace SetFormula.Elimination

/-- The letters among the taken numbers, in increasing order of their indices. -/
def lettersOf (t : Taken) : List Int := t.toList.filter isLetter

/-- The new index of a variable: that of its letter if it has one. -/
def letterImage (pairs : List (Int × Nat)) (i : Nat) : Nat := (pairs.lookup (i : Int)).getD i

/-- Rename the letters to the smallest numbers that are not in use. Indices fall as letters rise,
and the numbers come largest first, so both lists are paired as they stand. Afterwards the taken
numbers are the indices of the result. -/
def letters (depth : Nat) (e : Expr) : Unfolding Expr := do
  let ls := lettersOf (← get)
  if ls.isEmpty then return e
  let (new, _) := (← get).allocate ls.length
  Unfolding.requireHeight depth e
  let renamed := e.rename (letterImage (ls.zip new))
  set (Taken.ofExpr renamed)
  return renamed

end SetFormula.Elimination

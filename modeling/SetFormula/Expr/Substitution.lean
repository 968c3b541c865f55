import SetFormula.Expr.Walk

/-!
# Renaming variables

* `rename f` renames every variable, bound ones included.
* `renameFree x y` renames the free occurrences of `x`. A binder of `x` shadows it; the domain of a
  comprehension lies outside the scope of its variable.
* `substitute` and `substituteFree` take arbitrary integers and refuse those that are no index.
-/

namespace SetFormula.Expr

/-- Rename every variable, bound ones included. -/
def rename (f : Nat → Nat) : Expr → Expr
  | var i => var (f i)
  | constant c => constant c
  | relation r a b => relation r (a.rename f) (b.rename f)
  | negation a => negation (a.rename f)
  | connective c a b => connective c (a.rename f) (b.rename f)
  | quantified q x a => quantified q (f x) (a.rename f)
  | unary k a => unary k (a.rename f)
  | binary k a b => binary k (a.rename f) (b.rename f)
  | comprehension x s a => comprehension (f x) (s.rename f) (a.rename f)

/-- Rename the free occurrences of `x` to `y`. -/
def renameFree (x y : Nat) : Expr → Expr
  | var i => if i = x then var y else var i
  | constant c => constant c
  | relation r a b => relation r (a.renameFree x y) (b.renameFree x y)
  | negation a => negation (a.renameFree x y)
  | connective c a b => connective c (a.renameFree x y) (b.renameFree x y)
  | quantified q z a => quantified q z (if z = x then a else a.renameFree x y)
  | unary k a => unary k (a.renameFree x y)
  | binary k a b => binary k (a.renameFree x y) (b.renameFree x y)
  | comprehension z s a =>
    comprehension z (s.renameFree x y) (if z = x then a else a.renameFree x y)

/-- The image of an index under a list of replacements, of which the last one for it counts. -/
def image (replacements : List (Int × Int)) (i : Nat) : Int :=
  ((replacements.reverse.find? fun p => p.1 == (i : Int)).map (·.2)).getD i

/-- Replace variables everywhere, bound ones included, all at once. The first variable of the walk
whose replacement is no index is refused. -/
def substitute (replacements : List (Int × Int)) (e : Expr) : Except BuildFault Expr := do
  for i in e.occurrences do
    let _ ← checkIndex (image replacements i)
  return e.rename fun i => (image replacements i).toNat

/-- Replace the free occurrences of the variable `x` by the variable `y`. -/
def substituteFree (x y : Int) (e : Expr) : Except BuildFault Expr := do
  let y ← checkIndex y
  match x with
  | .ofNat x => return e.renameFree x y
  | .negSucc _ => return e

end SetFormula.Expr

import SetFormula.Expr

/-!
# Walking a tree

`walk` lists every node of a tree in pre-order. It keeps the nodes still to visit on a stack, so a
tall tree costs no recursion; `preorder` is the same list by recursion on the tree. What occurs in a
tree is read off the walk: `occurrences` lists the variable indices, binders included, and
`isPrimitive` tests every node.
-/

namespace SetFormula.Expr

/-- The nodes reached from a stack of trees in at most `n` visits, in pre-order. -/
def walkStack : Nat → List Expr → List Expr
  | 0, _ => []
  | _, [] => []
  | n + 1, e :: stack => e :: walkStack n (e.children ++ stack)

/-- Every node of the tree in pre-order. Each is visited once, so as many visits as there are nodes
are enough. -/
def walk (e : Expr) : List Expr := walkStack e.size [e]

/-- Every node of the tree in pre-order, by recursion on the tree. -/
def preorder : Expr → List Expr
  | var i => [var i]
  | constant c => [constant c]
  | relation r a b => relation r a b :: (a.preorder ++ b.preorder)
  | negation a => negation a :: a.preorder
  | connective c a b => connective c a b :: (a.preorder ++ b.preorder)
  | quantified q x a => quantified q x a :: var x :: a.preorder
  | unary k a => unary k a :: a.preorder
  | binary k a b => binary k a b :: (a.preorder ++ b.preorder)
  | comprehension x s a =>
    comprehension x s a :: mem (var x) s :: var x :: (s.preorder ++ a.preorder)

/-- The index at the root, if the root is a variable. -/
def index? : Expr → Option Nat
  | var i => some i
  | _ => none

/-- The indices of the variables of the tree, in the order of the walk. -/
def occurrences (e : Expr) : List Nat := e.walk.filterMap index?

/-- Whether only the primitive vocabulary occurs. -/
def isPrimitive (e : Expr) (allowConstants : Bool) : Bool :=
  e.walk.all (isPrimitiveNode allowConstants)

end SetFormula.Expr

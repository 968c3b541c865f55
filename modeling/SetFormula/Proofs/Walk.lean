import Mathlib
import SetFormula.Expr.Walk

/-!
# The walk of a tree by recursion

The walk keeps the nodes still to visit on a stack. Here it is shown to be the pre-order by
recursion on the tree, `walk_eq_preorder`, so what is read off the walk can be computed constructor
by constructor: `occurrences_eq_append` for the indices of the variables, `isPrimitive_iff` for the
test of the primitive vocabulary.
-/

namespace SetFormula.Expr

/-! ## The stack -/

theorem preorder_eq_cons (e : Expr) : e.preorder = e :: e.children.flatMap preorder := by
  cases e <;> simp [preorder, children]

theorem size_eq_succ (e : Expr) : e.size = (e.children.map size).sum + 1 := by
  cases e <;> simp [size, children] <;> omega

theorem size_pos (e : Expr) : 0 < e.size := by
  rw [size_eq_succ]
  omega

/-- With as many visits as there are nodes on the stack and below, all of them are visited, those of
the top of the stack first. -/
theorem walkStack_eq_flatMap (n : Nat) (stack : List Expr) (h : (stack.map size).sum ≤ n) :
    walkStack n stack = stack.flatMap preorder := by
  induction n generalizing stack with
  | zero =>
    cases stack with
    | nil => rfl
    | cons e stack =>
      have hpos := e.size_pos
      simp only [List.map_cons, List.sum_cons] at h
      omega
  | succ n ih =>
    cases stack with
    | nil => rfl
    | cons e stack =>
      have hsize : ((e.children ++ stack).map size).sum ≤ n := by
        rw [List.map_cons, List.sum_cons, size_eq_succ] at h
        rw [List.map_append, List.sum_append]
        omega
      rw [walkStack, ih _ hsize, List.flatMap_append, List.flatMap_cons, preorder_eq_cons e,
        List.cons_append]

theorem walk_eq_preorder (e : Expr) : e.walk = e.preorder := by
  rw [walk, walkStack_eq_flatMap e.size [e] (by simp)]
  simp

/-! ## Occurrences -/

/-- The occurrences in a tree: the root if it is a variable, then those of the trees below it. -/
theorem occurrences_eq_append (e : Expr) :
    e.occurrences = e.index?.toList ++ e.children.flatMap occurrences := by
  have h : ∀ a : Expr, a.occurrences = a.preorder.filterMap index? := fun a => by
    rw [occurrences, walk_eq_preorder]
  rw [h, preorder_eq_cons, List.filterMap_cons, List.filterMap_flatMap, funext h]
  cases e.index? <;> rfl

@[simp] theorem occurrences_var (i : Nat) : (var i).occurrences = [i] := rfl

@[simp] theorem occurrences_constant (c : Constant) : (constant c).occurrences = [] := rfl

@[simp] theorem occurrences_relation (r : Relation) (a b : Expr) :
    (relation r a b).occurrences = a.occurrences ++ b.occurrences := by
  rw [occurrences_eq_append]
  change [a, b].flatMap occurrences = _
  simp

@[simp] theorem occurrences_negation (a : Expr) : (negation a).occurrences = a.occurrences := by
  rw [occurrences_eq_append]
  change [a].flatMap occurrences = _
  simp

@[simp] theorem occurrences_connective (c : Connective) (a b : Expr) :
    (connective c a b).occurrences = a.occurrences ++ b.occurrences := by
  rw [occurrences_eq_append]
  change [a, b].flatMap occurrences = _
  simp

@[simp] theorem occurrences_quantified (q : Quantifier) (x : Nat) (a : Expr) :
    (quantified q x a).occurrences = x :: a.occurrences := by
  rw [occurrences_eq_append]
  change [var x, a].flatMap occurrences = _
  simp

@[simp] theorem occurrences_unary (k : UnaryOperator) (a : Expr) :
    (unary k a).occurrences = a.occurrences := by
  rw [occurrences_eq_append]
  change [a].flatMap occurrences = _
  simp

@[simp] theorem occurrences_binary (k : BinaryOperator) (a b : Expr) :
    (binary k a b).occurrences = a.occurrences ++ b.occurrences := by
  rw [occurrences_eq_append]
  change [a, b].flatMap occurrences = _
  simp

@[simp] theorem occurrences_comprehension (x : Nat) (s a : Expr) :
    (comprehension x s a).occurrences = x :: (s.occurrences ++ a.occurrences) := by
  rw [occurrences_eq_append]
  change [mem (var x) s, a].flatMap occurrences = _
  simp

/-! ## The primitive vocabulary -/

/-- A tree is primitive if its root is and all trees below the root are. -/
theorem isPrimitive_iff (e : Expr) (allowConstants : Bool) :
    e.isPrimitive allowConstants ↔
      isPrimitiveNode allowConstants e ∧ ∀ a ∈ e.children, a.isPrimitive allowConstants := by
  simp only [isPrimitive, walk_eq_preorder]
  rw [preorder_eq_cons, List.all_cons, Bool.and_eq_true, List.all_flatMap, List.all_eq_true]

end SetFormula.Expr

import SetFormula.Index
import SetFormula.Symbol

/-!
# Expressions

The syntax tree of formulas and set terms. Both sorts live in one type, and a tree may be
ill-sorted: `isSet` and `isFormula` look at the root only. A quantifier and a comprehension hold
the index that they bind, so a tree that binds anything else cannot be written down.

* `children` lists the subtrees in order. A quantifier's variable counts as a child, and so does the
  membership `x ∈ S` of a comprehension.
* `ofIndex`, `bind` and `separate` build a node from loose parts, and `rebuild` rebuilds a node
  with other children; they refuse parts that do not fit.
* `size` counts nodes and `height` levels.
-/

namespace SetFormula

/-- Formulas and set terms. -/
inductive Expr where
  /-- A variable, by its index. -/
  | var (i : Nat)
  /-- A named set. -/
  | constant (c : Constant)
  /-- A relation between two terms, as `A ∈ B`. -/
  | relation (r : Relation) (left right : Expr)
  /-- The negation of a formula. -/
  | negation (operand : Expr)
  /-- A connective between two formulas. -/
  | connective (c : Connective) (left right : Expr)
  /-- A quantified formula; `x` is bound in `body`. -/
  | quantified (q : Quantifier) (x : Nat) (body : Expr)
  /-- An operator applied to one term. -/
  | unary (k : UnaryOperator) (operand : Expr)
  /-- An operator applied to two terms. -/
  | binary (k : BinaryOperator) (left right : Expr)
  /-- The set of the members of `domain` with a property; `x` is bound in `predicate` only. -/
  | comprehension (x : Nat) (domain predicate : Expr)
  deriving DecidableEq, Repr, Inhabited

namespace Expr

/-! ## Abbreviations for the primitive formulas -/

/-- The formula `a ∈ b`. -/
abbrev mem (a b : Expr) : Expr := relation .element a b

/-- The formula `a = b`. -/
abbrev eq (a b : Expr) : Expr := relation .equality a b

/-- The formula `a ⊆ b`. -/
abbrev sub (a b : Expr) : Expr := relation .subset a b

/-- The formula `(a ∧ b)`. -/
abbrev conj (a b : Expr) : Expr := connective .conjunction a b

/-- The formula `(a ∨ b)`. -/
abbrev disj (a b : Expr) : Expr := connective .disjunction a b

/-- The formula `(a → b)`. -/
abbrev imp (a b : Expr) : Expr := connective .implication a b

/-- The formula `(a ↔ b)`. -/
abbrev iff (a b : Expr) : Expr := connective .biconditional a b

/-- The formula `∀x a`. -/
abbrev all (x : Nat) (a : Expr) : Expr := quantified .universal x a

/-- The formula `∃x a`. -/
abbrev ex (x : Nat) (a : Expr) : Expr := quantified .existential x a

/-- The constant `∅`. -/
abbrev empty : Expr := constant .emptySet

/-! ## Sorts -/

/-- The display name of the root of a tree. -/
def tag : Expr → String
  | var _ => "Variable"
  | constant c => c.name
  | relation r _ _ => r.name
  | negation _ => negationName
  | connective c _ _ => c.name
  | quantified q _ _ => q.name
  | unary k _ => k.name
  | binary k _ _ => k.name
  | comprehension _ _ _ => "Comprehension"

/-- Whether the root is that of a set term. -/
def isSet : Expr → Bool
  | var _ | constant _ | unary _ _ | binary _ _ _ | comprehension _ _ _ => true
  | _ => false

/-- Whether the root is that of a formula. -/
def isFormula : Expr → Bool
  | relation _ _ _ | negation _ | connective _ _ _ | quantified _ _ _ => true
  | _ => false

/-- A node of the primitive vocabulary: variables, `=`, `∈`, negation, connectives, quantifiers, and
constants if they are allowed. -/
def isPrimitiveNode (allowConstants : Bool) : Expr → Bool
  | var _ | negation _ | connective _ _ _ | quantified _ _ _ => true
  | relation .equality _ _ | relation .element _ _ => true
  | constant _ => allowConstants
  | _ => false

/-! ## Subtrees -/

/-- The subtrees directly below the root, in order. -/
def children : Expr → List Expr
  | var _ | constant _ => []
  | relation _ a b | connective _ a b | binary _ a b => [a, b]
  | negation a | unary _ a => [a]
  | quantified _ x a => [var x, a]
  | comprehension x s a => [mem (var x) s, a]

/-- The number of nodes. -/
def size : Expr → Nat
  | var _ | constant _ => 1
  | relation _ a b | connective _ a b | binary _ a b => 1 + a.size + b.size
  | negation a | unary _ a => 1 + a.size
  | quantified _ _ a => 2 + a.size
  | comprehension _ s a => 3 + s.size + a.size

/-- The number of levels below the root. -/
def height : Expr → Nat
  | var _ | constant _ => 0
  | relation _ a b | connective _ a b | binary _ a b => 1 + max a.height b.height
  | negation a | unary _ a => 1 + a.height
  | quantified _ _ a => 1 + a.height
  | comprehension _ s a => 1 + max (1 + s.height) a.height

/-! ## Building nodes from loose parts -/

/-- Why a node cannot be built. -/
inductive BuildFault where
  /-- The number is no variable index. -/
  | indexOutOfRange (i : Int)
  /-- A quantifier binds variables only. -/
  | bindsNoVariable (e : Expr)
  /-- The first part of a comprehension is a membership of a variable. -/
  | malformedMembership (e : Expr)
  /-- A leaf has no children. -/
  | leafWithChildren (e : Expr) (count : Nat)
  /-- The node needs more children. -/
  | tooFewChildren (expected count : Nat)
  /-- The node needs fewer children. -/
  | tooManyChildren (expected : Nat)
  deriving DecidableEq, Repr

/-- The number, as a variable index. -/
def checkIndex (i : Int) : Except BuildFault Nat :=
  if 0 ≤ i ∧ i ≤ maxIndex then .ok i.toNat else .error (.indexOutOfRange i)

/-- The variable with the given index. -/
def ofIndex (i : Int) : Except BuildFault Expr := (checkIndex i).map var

/-- A quantified formula from the tree of its variable and its body. -/
def bind (q : Quantifier) : Expr → Expr → Except BuildFault Expr
  | var x, body => .ok (quantified q x body)
  | e, _ => .error (.bindsNoVariable e)

/-- A comprehension from the tree of its membership and its predicate. -/
def separate : Expr → Expr → Except BuildFault Expr
  | relation .element (var x) domain, predicate => .ok (comprehension x domain predicate)
  | e, _ => .error (.malformedMembership e)

/-- Apply `f` to the only element of a list. -/
def fromOne (f : Expr → Except BuildFault Expr) : List Expr → Except BuildFault Expr
  | [a] => f a
  | [] => .error (.tooFewChildren 1 0)
  | _ => .error (.tooManyChildren 1)

/-- Apply `f` to the two elements of a list. -/
def fromTwo (f : Expr → Expr → Except BuildFault Expr) : List Expr → Except BuildFault Expr
  | [a, b] => f a b
  | [] => .error (.tooFewChildren 2 0)
  | [_] => .error (.tooFewChildren 2 1)
  | _ => .error (.tooManyChildren 2)

/-- The node with other children. -/
def rebuild (e : Expr) (parts : List Expr) : Except BuildFault Expr :=
  match e with
  | var _ | constant _ => if parts.isEmpty then .ok e else .error (.leafWithChildren e parts.length)
  | relation r _ _ => fromTwo (fun a b => .ok (relation r a b)) parts
  | negation _ => fromOne (fun a => .ok (negation a)) parts
  | connective c _ _ => fromTwo (fun a b => .ok (connective c a b)) parts
  | quantified q _ _ => fromTwo (bind q) parts
  | unary k _ => fromOne (fun a => .ok (unary k a)) parts
  | binary k _ _ => fromTwo (fun a b => .ok (binary k a b)) parts
  | comprehension _ _ _ => fromTwo separate parts

end Expr

end SetFormula

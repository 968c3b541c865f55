import SetFormula.Expr

/-!
# Describing expressions and faults in building them

`describe` shows the structure of a tree node by node, for messages about trees that have no text in
the formula language, and `BuildFault.message` is the wording of a refused node.
-/

namespace SetFormula

/-- The description of one of the kinds of symbol: its family, its label and its name. -/
def describeKind (family label name : String) : String :=
  "<" ++ family ++ "." ++ label ++ ": '" ++ name ++ "'>"

namespace Relation

/-- The description of a relation. -/
def describe (r : Relation) : String :=
  describeKind "RelationKind" (match r with
    | equality => "EQUALITY"
    | element => "ELEMENT"
    | subset => "SUBSET"
    | notEqual => "NOT_EQUAL"
    | notElement => "NOT_ELEMENT"
    | notSubset => "NOT_SUBSET") r.name

end Relation

namespace Connective

/-- The description of a connective. -/
def describe (c : Connective) : String :=
  describeKind "ConnectiveKind" (match c with
    | conjunction => "CONJUNCTION"
    | disjunction => "DISJUNCTION"
    | implication => "IMPLICATION"
    | biconditional => "BICONDITIONAL") c.name

end Connective

namespace Quantifier

/-- The description of a quantifier. -/
def describe (q : Quantifier) : String :=
  describeKind "QuantifierKind" (match q with
    | universal => "UNIVERSAL"
    | existential => "EXISTENTIAL") q.name

end Quantifier

namespace Constant

/-- The description of a constant. -/
def describe (c : Constant) : String :=
  describeKind "ConstantKind" (match c with
    | emptySet => "EMPTY_SET"
    | omega => "OMEGA") c.name

end Constant

namespace UnaryOperator

/-- The description of an operator. -/
def describe (k : UnaryOperator) : String :=
  describeKind "UnaryOperatorKind" (match k with
    | singleton => "SINGLETON"
    | powerSet => "POWER_SET"
    | bigUnion => "BIG_UNION"
    | bigIntersection => "BIG_INTERSECTION") k.name

end UnaryOperator

namespace BinaryOperator

/-- The description of an operator. -/
def describe (k : BinaryOperator) : String :=
  describeKind "BinaryOperatorKind" (match k with
    | union => "UNION"
    | intersection => "INTERSECTION"
    | difference => "DIFFERENCE"
    | pairSet => "PAIR_SET") k.name

end BinaryOperator

namespace Expr

/-- The description of a node with two named operands. -/
def describeTwo (node kind left right : String) : String :=
  node ++ "(kind=" ++ kind ++ ", left=" ++ left ++ ", right=" ++ right ++ ")"

/-- The description of a variable. -/
def describeVariable (i : Nat) : String := "Variable(index=" ++ toString i ++ ")"

/-- The structure of a tree, node by node. -/
def describe : Expr → String
  | var i => describeVariable i
  | constant c => "Constant(kind=" ++ c.describe ++ ")"
  | relation r a b => describeTwo "Relation" r.describe a.describe b.describe
  | negation a => "Negation(operand=" ++ a.describe ++ ")"
  | connective c a b => describeTwo "Connective" c.describe a.describe b.describe
  | quantified q x a =>
    "Quantifier(kind=" ++ q.describe ++ ", var=" ++ describeVariable x ++ ", body=" ++ a.describe ++
      ")"
  | unary k a => "UnaryOperator(kind=" ++ k.describe ++ ", operand=" ++ a.describe ++ ")"
  | binary k a b => describeTwo "BinaryOperator" k.describe a.describe b.describe
  | comprehension x s a =>
    "Comprehension(membership=" ++
      describeTwo "Relation" Relation.element.describe (describeVariable x) s.describe ++
      ", predicate=" ++ a.describe ++ ")"

/-- The wording of a refused node. -/
def BuildFault.message : BuildFault → String
  | .indexOutOfRange i => "Variable index out of range: " ++ toString i
  | .bindsNoVariable e => "Quantifier must bind a Variable, got " ++ e.tag
  | .malformedMembership e => "Malformed comprehension membership: " ++ e.describe
  | .leafWithChildren e n => e.tag ++ " takes no children, got " ++ toString n
  | .tooFewChildren expected n =>
    "not enough values to unpack (expected " ++ toString expected ++ ", got " ++ toString n ++ ")"
  | .tooManyChildren expected =>
    "too many values to unpack (expected " ++ toString expected ++ ")"

end Expr

end SetFormula

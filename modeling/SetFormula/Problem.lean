import SetFormula.Text.Quoted

/-!
# What is wrong with a formula text

`Problem` lists the reasons for which a formula is refused, and `Problem.message` is their wording.
Found and wanted things are named by their display names or their quoted text.
-/

namespace SetFormula

/-- What an operand belongs to. -/
inductive Role where
  | relation (text : String)
  | operator (text : String)
  | negation (text : String)
  | quantifier (text : String)
  | connective (text : String)
  | comprehensionBar
  | pairSet
  | singleton
  deriving DecidableEq, Repr

/-- The wording of a role. -/
def Role.phrase : Role → String
  | relation text => "Relation " ++ Text.quote text
  | operator text => "Operator " ++ Text.quote text
  | negation text => "Negation " ++ Text.quote text
  | quantifier text => "Quantifier " ++ Text.quote text
  | connective text => "Connective " ++ Text.quote text
  | comprehensionBar => "Comprehension '|'"
  | pairSet => "Pair set"
  | singleton => "Singleton"

/-- Where a formula is wanted. -/
inductive FormulaPosition where
  /-- The whole text. -/
  | whole
  /-- The operand of a negation. -/
  | negated (text : String)
  /-- The body of a quantifier. -/
  | quantified (text : String)
  /-- The right side of a connective. -/
  | joined (text : String)
  /-- The predicate of a comprehension. -/
  | predicate
  deriving DecidableEq, Repr

/-- The wording of a position, with a space in front unless it is empty. -/
def FormulaPosition.phrase : FormulaPosition → String
  | whole => ""
  | negated text => " after " ++ Text.quote text
  | quantified text => " as body of " ++ text
  | joined text => " after " ++ text
  | predicate => " after '|'"

/-- What a bracket is wanted for. -/
inductive BracketPurpose where
  /-- To open the operand of an operator. -/
  | openOperator (text : String)
  /-- To close the operand of an operator. -/
  | closeOperator (text : String)
  /-- To close a connective. -/
  | closeConnective (text : String)
  /-- To close a parenthesis. -/
  | closeParenthesis
  /-- To close a brace. -/
  | closeBrace
  /-- To close a pair set. -/
  | closePairSet
  /-- To close a comprehension. -/
  | closeComprehension
  deriving DecidableEq, Repr

/-- The bracket that serves a purpose. -/
def BracketPurpose.bracket : BracketPurpose → String
  | openOperator _ => "("
  | closeOperator _ | closeConnective _ | closeParenthesis => ")"
  | closeBrace | closePairSet | closeComprehension => "\x7d"

/-- The wording of a purpose. -/
def BracketPurpose.phrase : BracketPurpose → String
  | openOperator text => "after " ++ text
  | closeOperator text => "to close " ++ text ++ "("
  | closeConnective text => "to close " ++ text
  | closeParenthesis => "to close '('"
  | closeBrace => "to close '\x7b'"
  | closePairSet => "to close pair set"
  | closeComprehension => "to close comprehension"

/-- Why a formula is refused. -/
inductive Problem where
  /-- There is nothing to read. -/
  | emptyFormula
  /-- The number of a variable reaches the indices of the letters. -/
  | indexTooLarge (text : String)
  /-- Something has to follow. -/
  | unexpectedEnd
  /-- A bracket is missing at the end. -/
  | missingBracket (purpose : BracketPurpose)
  /-- Something else stands where a bracket is wanted. -/
  | wrongBracket (purpose : BracketPurpose) (found : String)
  /-- The operand is missing at the end. -/
  | missingOperand (role : Role)
  /-- Something follows a complete formula. -/
  | trailing (found : String)
  /-- A set stands where a formula is wanted. -/
  | notAFormula (position : FormulaPosition) (found : String)
  /-- A formula stands to the left of a relation or an operator. -/
  | leftNotASet (text found : String)
  /-- A formula stands where a set is wanted. -/
  | notASet (role : Role) (found : String)
  /-- A set stands to the left of a connective. -/
  | leftNotAFormula (role : Role) (found : String)
  /-- A connective stands where an expression has to start. -/
  | strayConnective (role : Role)
  /-- A relation or an operator stands where an expression has to start. -/
  | missingLeft (role : Role)
  /-- A bracket stands where an expression has to start. -/
  | strayBracket (text : String)
  /-- A quantifier is not followed by a variable. -/
  | missingVariable (role : Role) (found : String)
  /-- What stands before the bar of a comprehension is not a membership of a variable. -/
  | notAMembership (found : String)
  deriving DecidableEq, Repr

/-- The wording of a problem. -/
def Problem.message : Problem → String
  | emptyFormula => "Unexpected end of input: empty formula"
  | indexTooLarge text => "Variable index too large: " ++ text
  | unexpectedEnd => "Unexpected end of input"
  | missingBracket p =>
    "Unexpected end of input: missing " ++ Text.quote p.bracket ++ " " ++ p.phrase
  | wrongBracket p found =>
    "Expected " ++ Text.quote p.bracket ++ " " ++ p.phrase ++ ", got " ++ found
  | missingOperand role => role.phrase ++ " at the end of the formula"
  | trailing found => "Unexpected " ++ found ++ " after complete formula"
  | notAFormula position found => "Expected a formula" ++ position.phrase ++ ", got " ++ found
  | leftNotASet text found => Text.quote text ++ " expects a set on the left, got " ++ found
  | notASet role found => role.phrase ++ " expects a set operand, got " ++ found
  | leftNotAFormula role found => role.phrase ++ " expects a formula on the left, got " ++ found
  | strayConnective role => role.phrase ++ " must stand between two formulas in parentheses"
  | missingLeft role => role.phrase ++ " has no left operand"
  | strayBracket text => "Unexpected " ++ Text.quote text
  | missingVariable role found => role.phrase ++ " expects a variable, got " ++ found
  | notAMembership found => "Comprehension expects 'variable ∈ set' before '|', got " ++ found

end SetFormula

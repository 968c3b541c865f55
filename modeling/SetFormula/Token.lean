import SetFormula.Symbol
import SetFormula.Text.Quoted

/-!
# Tokens

A token is a classified piece of a formula text, with the place where it starts. The lexer makes
tokens of the eight classes of the language; `TokenClass.other` stands for any further class that a
caller may put into a token list by hand.
-/

namespace SetFormula

/-! ## Places -/

/-- A position in an input: a line and a column, counted from 1, and the file if there is one. -/
structure Place where
  line : Int
  column : Int
  file : Option String
  deriving DecidableEq, Repr

/-- The text of a place. An empty file name counts as none. -/
def Place.text (p : Place) : String :=
  match p.file with
  | some file =>
    if file.isEmpty then "line " ++ toString p.line ++ ", column " ++ toString p.column
    else file ++ ":" ++ toString p.line ++ ":" ++ toString p.column
  | none => "line " ++ toString p.line ++ ", column " ++ toString p.column

/-! ## Classes -/

/-- The class of a token. -/
inductive TokenClass where
  | relation
  | connective
  | quantifier
  | bracket
  | constant
  | unaryOperator
  | binaryOperator
  | variableName
  | other (label : String)
  deriving DecidableEq, Repr

namespace TokenClass

/-- The label of a class. -/
def label : TokenClass → String
  | relation => "RELATION"
  | connective => "CONNECTIVE"
  | quantifier => "QUANTIFIER"
  | bracket => "BRACKET"
  | constant => "CONSTANT"
  | unaryOperator => "UNARY_OPERATOR"
  | binaryOperator => "BINARY_OPERATOR"
  | variableName => "VARIABLE"
  | other label => label

/-- The classes of the language. -/
def all : List TokenClass :=
  [relation, connective, quantifier, bracket, constant, unaryOperator, binaryOperator, variableName]

/-- The class with the given label. -/
def ofLabel (label : String) : TokenClass :=
  (all.find? fun c => c.label == label).getD (other label)

end TokenClass

/-! ## Tokens -/

/-- A classified piece of input. -/
structure Token where
  kind : TokenClass
  text : String
  place : Place
  deriving DecidableEq, Repr

namespace Token

/-- A token in a message: its class and its quoted text. -/
def describe (t : Token) : String := t.kind.label ++ "(" ++ Text.quote t.text ++ ")"

/-- The place just after a token. -/
def finish (t : Token) : Place := { t.place with column := t.place.column + t.text.length }

end Token

/-- The brackets and separators. -/
def bracketSpellings : List String := ["(", ")", "\x7b", "\x7d", "|", ","]

/-- The spellings of each class of symbols, in the order in which the classes are tried. -/
def symbolClasses : List (TokenClass × List String) :=
  [(.relation, Relation.all.flatMap Relation.spellings),
    (.connective, negationSpellings ++ Connective.all.flatMap Connective.spellings),
    (.quantifier, Quantifier.all.flatMap Quantifier.spellings),
    (.bracket, bracketSpellings),
    (.constant, Constant.all.flatMap Constant.spellings),
    (.unaryOperator, UnaryOperator.all.flatMap UnaryOperator.spellings),
    (.binaryOperator, BinaryOperator.all.flatMap BinaryOperator.spellings)]

end SetFormula

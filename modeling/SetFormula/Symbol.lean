/-!
# The vocabulary

The relations, connectives, quantifiers, constants and operators of the formula language, each
with its name and its accepted spellings.

* `spellings` lists the accepted spellings of a symbol, the canonical one first.
* `ofSpelling?` finds the symbol that a text spells.
* `symbol` is the canonical spelling, used in printed formulas.

`Singleton` and `PairSet` are written with braces and have no spelling.
-/

namespace SetFormula

/-! ## Relations -/

/-- Relations between two sets. -/
inductive Relation where
  | equality
  | element
  | subset
  | notEqual
  | notElement
  | notSubset
  deriving DecidableEq, Repr

namespace Relation

/-- All relations, in the order of the symbol table. -/
def all : List Relation := [equality, element, subset, notEqual, notElement, notSubset]

/-- The display name of a relation. -/
def name : Relation → String
  | equality => "Equality"
  | element => "Element"
  | subset => "Subset"
  | notEqual => "NotEqual"
  | notElement => "NotElement"
  | notSubset => "NotSubset"

/-- The accepted spellings, the canonical one first. -/
def spellings : Relation → List String
  | equality => ["="]
  | element => ["∈", "\\in"]
  | subset => ["⊆", "\\subseteq"]
  | notEqual => ["≠", "!=", "\\neq"]
  | notElement => ["∉", "\\notin"]
  | notSubset => ["⊈", "\\nsubseteq"]

/-- The canonical spelling. -/
def symbol (r : Relation) : String := r.spellings.headD ""

/-- The relation that a text spells. -/
def ofSpelling? (text : String) : Option Relation := all.find? (·.spellings.contains text)

/-- Whether the relation is the negation of another one. -/
def isNegated : Relation → Bool
  | notEqual | notElement | notSubset => true
  | _ => false

/-- The relation that is negated, or the relation itself if it is positive. -/
def positive : Relation → Relation
  | notEqual => equality
  | notElement => element
  | notSubset => subset
  | r => r

end Relation

/-! ## Connectives -/

/-- Connectives between two formulas. -/
inductive Connective where
  | conjunction
  | disjunction
  | implication
  | biconditional
  deriving DecidableEq, Repr

namespace Connective

/-- All connectives, in the order of the symbol table. -/
def all : List Connective := [conjunction, disjunction, implication, biconditional]

/-- The display name of a connective. -/
def name : Connective → String
  | conjunction => "Conjunction"
  | disjunction => "Disjunction"
  | implication => "Implication"
  | biconditional => "Biconditional"

/-- The accepted spellings, the canonical one first. -/
def spellings : Connective → List String
  | conjunction => ["∧", "&&", "&", "\\land"]
  | disjunction => ["∨", "||", "\\lor"]
  | implication => ["→", "->", "\\rightarrow"]
  | biconditional => ["↔", "<->", "\\leftrightarrow"]

/-- The canonical spelling. -/
def symbol (c : Connective) : String := c.spellings.headD ""

end Connective

/-- The spellings of negation, the canonical one first. -/
def negationSpellings : List String := ["¬", "!", "~", "\\lnot"]

/-- The canonical spelling of negation. -/
def negationSymbol : String := negationSpellings.headD ""

/-- The display name of negation. -/
def negationName : String := "Negation"

/-- What a connective token stands for: negation, or a connective between two formulas. -/
inductive Junction where
  | negation
  | binary (c : Connective)
  deriving DecidableEq, Repr

/-- The negation or connective that a text spells. -/
def Junction.ofSpelling? (text : String) : Option Junction :=
  if negationSpellings.contains text then some .negation
  else (Connective.all.find? (·.spellings.contains text)).map .binary

/-! ## Quantifiers -/

/-- The quantifiers. -/
inductive Quantifier where
  | universal
  | existential
  deriving DecidableEq, Repr

namespace Quantifier

/-- All quantifiers, in the order of the symbol table. -/
def all : List Quantifier := [universal, existential]

/-- The display name of a quantifier. -/
def name : Quantifier → String
  | universal => "Universal"
  | existential => "Existential"

/-- The accepted spellings, the canonical one first. -/
def spellings : Quantifier → List String
  | universal => ["∀", "\\forall"]
  | existential => ["∃", "\\exists"]

/-- The canonical spelling. -/
def symbol (q : Quantifier) : String := q.spellings.headD ""

/-- The quantifier that a text spells. -/
def ofSpelling? (text : String) : Option Quantifier := all.find? (·.spellings.contains text)

end Quantifier

/-! ## Constants -/

/-- The named sets. -/
inductive Constant where
  | emptySet
  | omega
  deriving DecidableEq, Repr

namespace Constant

/-- All constants, in the order of the symbol table. -/
def all : List Constant := [emptySet, omega]

/-- The display name of a constant. -/
def name : Constant → String
  | emptySet => "EmptySet"
  | omega => "Omega"

/-- The accepted spellings, the canonical one first. -/
def spellings : Constant → List String
  | emptySet => ["∅", "0", "\\emptyset"]
  | omega => ["ω", "\\omega"]

/-- The canonical spelling. -/
def symbol (c : Constant) : String := c.spellings.headD ""

/-- The constant that a text spells. -/
def ofSpelling? (text : String) : Option Constant := all.find? (·.spellings.contains text)

end Constant

/-! ## Operators -/

/-- Operators with one set operand. -/
inductive UnaryOperator where
  | singleton
  | powerSet
  | bigUnion
  | bigIntersection
  deriving DecidableEq, Repr

namespace UnaryOperator

/-- All operators with one operand, in the order of the symbol table. -/
def all : List UnaryOperator := [singleton, powerSet, bigUnion, bigIntersection]

/-- The display name of an operator. -/
def name : UnaryOperator → String
  | singleton => "Singleton"
  | powerSet => "PowerSet"
  | bigUnion => "BigUnion"
  | bigIntersection => "BigIntersection"

/-- The accepted spellings, the canonical one first. -/
def spellings : UnaryOperator → List String
  | singleton => []
  | powerSet => ["Pot", "\\powerset"]
  | bigUnion => ["⋃", "Vereinigung", "\\bigcup"]
  | bigIntersection => ["⋂", "Durchschnitt", "\\bigcap"]

/-- The canonical spelling; empty for the singleton. -/
def symbol (k : UnaryOperator) : String := k.spellings.headD ""

/-- The operator that a text spells. -/
def ofSpelling? (text : String) : Option UnaryOperator := all.find? (·.spellings.contains text)

end UnaryOperator

/-- Operators with two set operands. -/
inductive BinaryOperator where
  | union
  | intersection
  | difference
  | pairSet
  deriving DecidableEq, Repr

namespace BinaryOperator

/-- All operators with two operands, in the order of the symbol table. -/
def all : List BinaryOperator := [union, intersection, difference, pairSet]

/-- The display name of an operator. -/
def name : BinaryOperator → String
  | union => "Union"
  | intersection => "Intersection"
  | difference => "Difference"
  | pairSet => "PairSet"

/-- The accepted spellings, the canonical one first. -/
def spellings : BinaryOperator → List String
  | union => ["∪", "\\cup"]
  | intersection => ["∩", "\\cap"]
  | difference => ["\\", "∖", "\\setminus"]
  | pairSet => []

/-- The canonical spelling; empty for the pair set. -/
def symbol (k : BinaryOperator) : String := k.spellings.headD ""

/-- The operator that a text spells. -/
def ofSpelling? (text : String) : Option BinaryOperator := all.find? (·.spellings.contains text)

/-- Whether the operator is written between its operands: all but the pair set. -/
def isBetween : BinaryOperator → Bool
  | pairSet => false
  | _ => true

end BinaryOperator

/-! ## The symbol table -/

/-- The symbols that have a spelling, by name. -/
def symbolRows : List (String × List String) :=
  Relation.all.map (fun r => (r.name, r.spellings)) ++
    (negationName, negationSpellings) :: Connective.all.map (fun c => (c.name, c.spellings)) ++
    Quantifier.all.map (fun q => (q.name, q.spellings)) ++
    Constant.all.map (fun c => (c.name, c.spellings)) ++
    (UnaryOperator.all.map (fun k => (k.name, k.spellings)) ++
      BinaryOperator.all.map (fun k => (k.name, k.spellings))).filter (!·.2.isEmpty)

/-- A text filled with spaces on the right up to the given width. -/
def padRight (width : Nat) (s : String) : String :=
  s ++ String.ofList (List.replicate (width - s.length) ' ')

/-- The symbol table as text: a line for each symbol, its name and its spellings. -/
def symbolListing : String :=
  let width := symbolRows.foldl (fun w row => max w row.1.length) 0
  "\n".intercalate (symbolRows.map fun row => padRight width row.1 ++ "  " ++ "  ".intercalate row.2)

end SetFormula

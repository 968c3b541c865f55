import SetFormula.Expr

/-!
# Printing expressions

`render` writes a tree in canonical symbols. It follows left-leaning chains such as `A ∪ B ∪ C` and
`((φ ∨ ψ) ∨ χ)` downwards in a loop, collecting the right operands on the way, so a long chain costs
no recursion; `renderPlain` is the same text by recursion on the tree. `renderWithin` gives up on a
tree that takes too many levels of recursion (`printLevels`).

* A relation under a negation or a quantifier gets parentheses.
* An operand of an operator gets parentheses if it is itself an operator between two operands.
* A connective always gets parentheses.
-/

namespace SetFormula.Expr

/-- A text in parentheses. -/
def parenthesize (s : String) : String := "(" ++ s ++ ")"

/-- A text in braces. -/
def brace (s : String) : String := "\x7b" ++ s ++ "\x7d"

/-- Whether the root is an operator written between its operands. -/
def isChainLink : Expr → Bool
  | binary k _ _ => k.isBetween
  | _ => false

/-- Whether the root is a relation. -/
def isRelation : Expr → Bool
  | relation _ _ _ => true
  | _ => false

/-- A text, in parentheses if the flag is set. -/
def parenthesizeIf (b : Bool) (s : String) : String := if b then parenthesize s else s

/-! ## By recursion -/

/-- The text of a tree, by recursion. -/
def renderPlain : Expr → String
  | var i => indexText i
  | constant c => c.symbol
  | relation r a b => a.renderPlain ++ " " ++ r.symbol ++ " " ++ b.renderPlain
  | negation a => negationSymbol ++ parenthesizeIf a.isRelation a.renderPlain
  | connective c a b => parenthesize (a.renderPlain ++ " " ++ c.symbol ++ " " ++ b.renderPlain)
  | quantified q x a =>
    q.symbol ++ indexText x ++ " " ++ parenthesizeIf a.isRelation a.renderPlain
  | unary .singleton a => brace a.renderPlain
  | unary k a => k.symbol ++ parenthesize a.renderPlain
  | binary .pairSet a b => brace (a.renderPlain ++ ", " ++ b.renderPlain)
  | binary k a b =>
    parenthesizeIf a.isChainLink a.renderPlain ++ " " ++ k.symbol ++ " " ++
      parenthesizeIf b.isChainLink b.renderPlain
  | comprehension x s a =>
    brace (indexText x ++ " " ++ Relation.element.symbol ++ " " ++ s.renderPlain ++ " | " ++
      a.renderPlain)

/-! ## Along chains -/

/-- The chain that is being followed downwards. Its links, a symbol and the text of a right operand
each, are listed from the innermost one on. -/
inductive Chain where
  /-- No chain. -/
  | none
  /-- A chain of operators between sets. -/
  | operators (links : List (String × String))
  /-- A chain of connectives. -/
  | connectives (links : List (String × String))

namespace Chain

/-- The text of a chain of operators that starts with `first`: every link but the first puts what
stands before it in parentheses. -/
def operatorText (first : String) : List (String × String) → String
  | [] => first
  | (symbol, right) :: links =>
    links.foldl (fun text link => parenthesize text ++ " " ++ link.1 ++ " " ++ link.2)
      (first ++ " " ++ symbol ++ " " ++ right)

/-- The text of a chain of connectives that starts with `first`. -/
def connectiveText (first : String) (links : List (String × String)) : String :=
  links.foldl (fun text link => parenthesize (text ++ " " ++ link.1 ++ " " ++ link.2)) first

/-- The text of the whole chain, given the text of its leftmost operand. -/
def complete (first : String) : Chain → String
  | none => first
  | operators links => operatorText first links
  | connectives links => connectiveText first links

end Chain

/-- The text of the chain whose leftmost operand is the tree. -/
def renderOn (chain : Chain) : Expr → String
  | var i => chain.complete (indexText i)
  | constant c => chain.complete c.symbol
  | relation r a b =>
    chain.complete (a.renderOn .none ++ " " ++ r.symbol ++ " " ++ b.renderOn .none)
  | negation a =>
    chain.complete (negationSymbol ++ parenthesizeIf a.isRelation (a.renderOn .none))
  | connective c a b =>
    let link := (c.symbol, b.renderOn .none)
    match chain with
    | .connectives links => a.renderOn (.connectives (link :: links))
    | _ => chain.complete (a.renderOn (.connectives [link]))
  | quantified q x a =>
    chain.complete
      (q.symbol ++ indexText x ++ " " ++ parenthesizeIf a.isRelation (a.renderOn .none))
  | unary .singleton a => chain.complete (brace (a.renderOn .none))
  | unary k a => chain.complete (k.symbol ++ parenthesize (a.renderOn .none))
  | binary .pairSet a b => chain.complete (brace (a.renderOn .none ++ ", " ++ b.renderOn .none))
  | binary k a b =>
    let link := (k.symbol, parenthesizeIf b.isChainLink (b.renderOn .none))
    match chain with
    | .operators links => a.renderOn (.operators (link :: links))
    | _ => chain.complete (a.renderOn (.operators [link]))
  | comprehension x s a =>
    chain.complete (brace (indexText x ++ " " ++ Relation.element.symbol ++ " " ++
      s.renderOn .none ++ " | " ++ a.renderOn .none))

/-- The text of a tree in canonical symbols. -/
def render (e : Expr) : String := e.renderOn .none

/-! ## In few levels -/

/-- Whether the root is a connective. -/
def isConnective : Expr → Bool
  | connective _ _ _ => true
  | _ => false

/-- The levels of recursion in which a tree is printed. A node takes one, and so does the membership
of a comprehension; the links of a chain share theirs. -/
def printLevels : Expr → Nat
  | var _ | constant _ => 1
  | relation _ a b | binary .pairSet a b => max a.printLevels b.printLevels + 1
  | negation a | quantified _ _ a | unary _ a => a.printLevels + 1
  | connective _ a b =>
    max (if a.isConnective then a.printLevels else a.printLevels + 1) (b.printLevels + 1)
  | binary _ a b =>
    max (if a.isChainLink then a.printLevels else a.printLevels + 1) (b.printLevels + 1)
  | comprehension _ s a => max (s.printLevels + 1) a.printLevels + 1

/-- The text of a tree, if it is printed in at most `limit` levels. -/
def renderWithin (limit : Nat) (e : Expr) : Option String :=
  if e.printLevels ≤ limit then some e.render else none

end SetFormula.Expr

import SetFormula.Item

/-!
# Parsing

Recursive descent over a list of items. The grammar:

```
formula  ::= QUANTIFIER variable formula | NEGATION formula
           | "(" formula CONNECTIVE formula ")" | "(" formula ")"
           | term RELATION term
term     ::= atom (OPERATOR atom)*
atom     ::= VARIABLE | CONSTANT | OPERATOR "(" term ")" | "(" term ")"
           | "{" term "}" | "{" term "," term "}" | "{" VARIABLE "∈" term "|" formula "}"
```

A formula and a term may start alike, so `expression` reads whichever starts here and the caller
checks the sort. Only `nested` recurses, one level of nesting at a time; a chain of operators is a
loop and uses no levels.

* A parser is a `Script` of steps: it looks at the next item, moves past it, asks how many items are
  left, or reads a nested construct, and goes on with the answer.
* `Script.run` carries out a script on a list that is consumed from the front, and `Script.parse`
  does so with a number of levels, giving up when they are used up.
* `parseItems` reads a list of items as one formula, `parse` a list of tokens.
* A failure notes how many items were left, which `placeOf` turns into a place.
-/

namespace SetFormula

/-- A step that no parser may take. -/
inductive Misstep where
  /-- There is no item to move past. -/
  | pastEnd
  /-- The item that was taken for a symbol is a leaf. -/
  | notASymbol
  /-- The rounds of a loop are used up. -/
  | unending
  deriving DecidableEq, Repr

/-- Why no expression is read. -/
inductive ParseFailure where
  /-- The formula is refused at the item after which `left - 1` further items follow, or at the end
  if `left` is 0. -/
  | refused (p : Problem) (left : Nat)
  /-- A token is at fault in itself. -/
  | badToken (fault : TokenFault)
  /-- The levels of nesting are used up. -/
  | tooDeep
  /-- The parser is at fault. -/
  | misstep (m : Misstep)
  deriving DecidableEq, Repr

/-- The steps of a parser. -/
inductive Script (α : Type) where
  /-- Return a result. -/
  | done (a : α)
  /-- Give up. -/
  | fail (f : ParseFailure)
  /-- Look at the next item, which stays. -/
  | look (next : Option Item → Script α)
  /-- Move past the next item. -/
  | move (next : Item → Script α)
  /-- Ask for the number of items left. -/
  | count (next : Nat → Script α)
  /-- Read the construct that the next item introduces, one level of nesting further down. -/
  | nest (next : Expr → Script α)

namespace Script

variable {α β : Type}

/-- Go on with the result of a script. -/
def bind (f : α → Script β) : Script α → Script β
  | done a => f a
  | fail e => fail e
  | look next => look fun item? => (next item?).bind f
  | move next => move fun item => (next item).bind f
  | count next => count fun left => (next left).bind f
  | nest next => nest fun e => (next e).bind f

instance : Monad Script where
  pure := done
  bind s f := s.bind f

/-! ## Reading items -/

/-- The next item, which stays in the list. -/
def peek : Script (Option Item) := look done

/-- Move past the next item. -/
def advance : Script Item := move done

/-- The number of items left. -/
def remaining : Script Nat := count done

/-- The construct that the next item introduces, one level of nesting further down. -/
def nested : Script Expr := nest done

/-- Refuse the formula at the point where `left` items were left. -/
def refuseAt (p : Problem) (left : Nat) : Script α := fail (.refused p left)

/-- Refuse the formula here. -/
def refuse (p : Problem) : Script α := do refuseAt p (← remaining)

/-- The symbol that was looked up, or a fault of the token with this text. -/
def known (text : String) : Option α → Script α
  | some a => pure a
  | none => fail (.badToken (.unknownSpelling text))

/-- Move past the next item, which has to be a symbol, and look up its text in a table. -/
def take (spelling? : String → Option α) : Script (String × α) := do
  match ← advance with
  | .symbol _ text => return (text, ← known text (spelling? text))
  | _ => fail (.misstep .notASymbol)

/-- Move past the bracket that serves a purpose. -/
def expect (purpose : BracketPurpose) : Script Unit := do
  match ← peek with
  | none => refuse (.missingBracket purpose)
  | some item =>
    if item = .symbol .bracket purpose.bracket then
      let _ ← advance
    else refuse (.wrongBracket purpose item.describe)

/-- Something has to follow. -/
def requireOperand (role : Role) : Script Unit := do
  match ← peek with
  | none => refuse (.missingOperand role)
  | some _ => pure ()

/-- The expression has to be a set; it was read when `left` items were left. -/
def requireSet (role : Role) (left : Nat) (e : Expr) : Script Unit :=
  if e.isSet then pure () else refuseAt (.notASet role e.tag) left

/-! ## Terms and formulas -/

/-- The operand of a role: a construct that is a set. -/
def atom (role : Role) : Script Expr := do
  requireOperand role
  let left ← remaining
  let e ← nested
  requireSet role left e
  return e

/-- The operators after the operand `first`, grouped to the left, in at most `n` rounds. The last
round finds none. -/
def chain : Nat → Expr → Script Expr
  | 0, _ => fail (.misstep .unending)
  | n + 1, first => do
    match ← peek with
    | some (.symbol .binaryOperator _) =>
      let (text, k) ← take BinaryOperator.ofSpelling?
      let second ← atom (.operator text)
      chain n (.binary k first second)
    | _ => return first

/-- The operators after the operand `first`. Each takes an item, so there are fewer rounds than
items with one more. -/
def operators (first : Expr) : Script Expr := do chain ((← remaining) + 1) first

/-- A term as the operand of a role. -/
def term (role : Role) : Script Expr := do operators (← atom role)

/-- The operators after the operand `first`, if an operator or a relation follows; `first` was read
when `left` items were left. -/
def extend (left : Nat) (first : Expr) : Script Expr := do
  match ← peek with
  | some (.symbol .binaryOperator text) | some (.symbol .relation text) =>
    if first.isSet then operators first else refuseAt (.leftNotASet text first.tag) left
  | _ => return first

/-- The relation after its left side `e`, if one follows. -/
def conclude (e : Expr) : Script Expr := do
  match ← peek with
  | some (.symbol .relation _) =>
    let (text, r) ← take Relation.ofSpelling?
    let second ← term (.relation text)
    return .relation r e second
  | _ => return e

/-- A formula or a term, whichever starts here. -/
def expression : Script Expr := do
  let left ← remaining
  let first ← nested
  let e ← extend left first
  conclude e

/-- A formula in the given position. -/
def formula (position : FormulaPosition) : Script Expr := do
  let left ← remaining
  let e ← expression
  if e.isFormula then return e else refuseAt (.notAFormula position e.tag) left

/-! ## Constructs by their first item -/

/-- A quantified formula. -/
def quantified : Script Expr := do
  let (text, q) ← take Quantifier.ofSpelling?
  match ← peek with
  | some (.var x) =>
    let _ ← advance
    requireOperand (.quantifier text)
    let body ← formula (.quantified text)
    return .quantified q x body
  | none => refuse (.missingVariable (.quantifier text) "end of input")
  | some item => refuse (.missingVariable (.quantifier text) item.describe)

/-- A negated formula, whose negation has the given text. -/
def negated (text : String) : Script Expr := do
  let _ ← advance
  requireOperand (.negation text)
  let e ← formula (.negated text)
  return .negation e

/-- The end of an expression in parentheses. -/
def closed (e : Expr) : Script Expr := do
  expect .closeParenthesis
  return e

/-- An expression or a connective in parentheses. -/
def parenthesized : Script Expr := do
  let _ ← advance
  let left ← remaining
  let first ← expression
  match ← peek with
  | some (.symbol .connective text) =>
    match ← known text (Junction.ofSpelling? text) with
    | .binary c =>
      let _ ← advance
      if first.isFormula then
        requireOperand (.connective text)
        let second ← formula (.joined text)
        expect (.closeConnective text)
        return .connective c first second
      else refuseAt (.leftNotAFormula (.connective text) first.tag) left
    | .negation => closed first
  | _ => closed first

/-- The rest of a pair set, after its comma; `first` was read when `left` items were left. -/
def pairSet (left : Nat) (first : Expr) : Script Expr := do
  requireSet .pairSet left first
  let second ← term .pairSet
  expect .closePairSet
  return .binary .pairSet first second

/-- The rest of a comprehension, after its bar; `first` was read when `left` items were left. -/
def comprehension (left : Nat) (first : Expr) : Script Expr :=
  match first with
  | .relation .element (.var x) domain => do
    requireOperand .comprehensionBar
    let predicate ← formula .predicate
    expect .closeComprehension
    return .comprehension x domain predicate
  | e => refuseAt (.notAMembership e.tag) left

/-- The rest of a singleton; `first` was read when `left` items were left. -/
def singleton (left : Nat) (first : Expr) : Script Expr := do
  requireSet .singleton left first
  expect .closeBrace
  return .unary .singleton first

/-- A singleton, a pair set or a comprehension. -/
def braced : Script Expr := do
  let _ ← advance
  let left ← remaining
  let first ← expression
  let next ← peek
  if next = some (.symbol .bracket ",") then
    let _ ← advance
    pairSet left first
  else if next = some (.symbol .bracket "|") then
    let _ ← advance
    comprehension left first
  else singleton left first

/-- An operator applied to a term in parentheses. -/
def applied : Script Expr := do
  let (text, k) ← take UnaryOperator.ofSpelling?
  expect (.openOperator text)
  let operand ← term (.operator text)
  expect (.closeOperator text)
  return .unary k operand

/-- The construct that the next item introduces. -/
def construct : Script Expr := do
  match ← peek with
  | none => refuse .unexpectedEnd
  | some (.var i) =>
    let _ ← advance
    return .var i
  | some (.constant c) =>
    let _ ← advance
    return .constant c
  | some (.symbol .quantifier _) => quantified
  | some (.symbol .connective text) =>
    match ← known text (Junction.ofSpelling? text) with
    | .negation => negated text
    | .binary _ => refuse (.strayConnective (.connective text))
  | some (.symbol .bracket text) =>
    if text = "(" then parenthesized
    else if text = "\x7b" then braced
    else refuse (.strayBracket text)
  | some (.symbol .unaryOperator _) => applied
  | some (.symbol .relation text) => refuse (.missingLeft (.relation text))
  | some (.symbol .binaryOperator text) => refuse (.missingLeft (.operator text))
  | some (.symbol kind text) => fail (.badToken (.unknownClass kind.label text))

end Script

/-! ## Carrying out scripts -/

/-- A parser consumes items from the front of a list. -/
abbrev Parse (α : Type) := List Item → Except ParseFailure (α × List Item)

/-- Carry out a script, with a parser for the nested constructs. -/
def Script.run {α : Type} (primary : Parse Expr) : Script α → Parse α
  | done a, items => .ok (a, items)
  | fail f, _ => .error f
  | look next, items => (next items.head?).run primary items
  | move _, [] => .error (.misstep .pastEnd)
  | move next, item :: items => (next item).run primary items
  | count next, items => (next items.length).run primary items
  | nest next, items =>
    match primary items with
    | .ok (e, rest) => (next e).run primary rest
    | .error f => .error f

/-- The construct that the next item introduces, with at most `depth` levels of nesting. -/
def primary : Nat → Parse Expr
  | 0 => fun _ => .error .tooDeep
  | depth + 1 => Script.construct.run (primary depth)

/-- Carry out a script with at most `depth` levels of nesting. -/
def Script.parse {α : Type} (depth : Nat) (s : Script α) : Parse α := s.run (primary depth)

/-! ## Whole formulas -/

/-- Read a list of items as one formula, with at most `depth` levels of nesting. -/
def parseItems (depth : Nat) (items : List Item) : Except ParseFailure Expr :=
  match items with
  | [] => .error (.refused .emptyFormula 0)
  | items =>
    match Script.expression.parse depth items with
    | .error e => .error e
    | .ok (e, []) =>
      if e.isFormula then .ok e else .error (.refused (.notAFormula .whole e.tag) items.length)
    | .ok (_, item :: rest) => .error (.refused (.trailing item.describe) (rest.length + 1))

/-- Look up tokens from left to right; the first one at fault counts. -/
def itemsOf : List Token → Except ParseFailure (List Item)
  | [] => .ok []
  | t :: ts =>
    match Item.ofToken t with
    | .error (.token fault) => .error (.badToken fault)
    | .error (.problem p) => .error (.refused p (ts.length + 1))
    | .ok item => (itemsOf ts).map (item :: ·)

/-- Read a list of tokens as one formula, with at most `depth` levels of nesting. -/
def parse (depth : Nat) (tokens : List Token) : Except ParseFailure Expr := do
  parseItems depth (← itemsOf tokens)

/-- Read an expression from the front of a list of tokens, with at most `depth` levels of nesting.
The number of tokens that were read is given with it. -/
def parseFront (depth : Nat) (s : Script Expr) (tokens : List Token) :
    Except ParseFailure (Expr × Nat) := do
  let items ← itemsOf tokens
  let (e, rest) ← s.parse depth items
  return (e, items.length - rest.length)

/-- The place in a list of tokens where `left` of them are left: that of the next token, or the end
of the last one. There is none in an empty list. -/
def placeOf (tokens : List Token) (left : Nat) : Option Place :=
  match tokens.drop (tokens.length - left) with
  | t :: _ => some t.place
  | [] => tokens.getLast?.map Token.finish

end SetFormula

import SetFormula.Expr
import SetFormula.Problem
import SetFormula.Token

/-!
# Items

An item is what the parser reads: a variable or a constant that has been looked up already, or a
symbol that has not. Items carry no place, so what a list of items means does not depend on where
its tokens stood.

* `Item.ofToken` looks up a token.
-/

namespace SetFormula

/-- What is wrong with a token in itself, whatever stands around it. The lexer makes no such token
except one with too many digits. -/
inductive TokenFault where
  /-- The text spells no symbol of its class. -/
  | unknownSpelling (text : String)
  /-- A variable without text. -/
  | emptyVariable
  /-- A one-character variable that is no letter. -/
  | badName (fault : NameFault)
  /-- A longer variable that does not start with `v`. -/
  | notNumbered (text : String)
  /-- The number of the variable is no numeral. -/
  | badNumeral (digits : String)
  /-- The number of the variable is too long to be read. -/
  | tooManyDigits (count : Nat)
  /-- The number of the variable is no index. -/
  | badIndex (i : Int)
  /-- No expression starts with a token of this class. -/
  | unknownClass (label text : String)
  deriving DecidableEq, Repr

/-- What the parser reads. -/
inductive Item where
  | var (i : Nat)
  | constant (c : Constant)
  | symbol (kind : TokenClass) (text : String)
  deriving DecidableEq, Repr

namespace Item

/-- An item in a message: the display name of a leaf, or the quoted text of a symbol. -/
def describe : Item → String
  | .var i => (Expr.var i).tag
  | .constant c => (Expr.constant c).tag
  | .symbol _ text => Text.quote text

/-- Why a token is not taken into the list of items. -/
inductive Fault where
  /-- The token is at fault in itself. -/
  | token (fault : TokenFault)
  /-- The formula is refused. -/
  | problem (p : Problem)
  deriving DecidableEq, Repr

/-- The most characters of a quoted numeral that a message shows. -/
def shownDigits : Nat := 200

/-- The variable with the given text: a letter, or `v` and a number below the letters. -/
def ofVariable (text : String) : Except Fault Nat :=
  match text.toList with
  | [] => .error (.token .emptyVariable)
  | [_] =>
    match indexOfName text with
    | .ok i => .ok i
    | .error e => .error (.token (.badName e))
  | c :: digits =>
    if c = numberedLetter then
      let digits := digits.map Text.ofSubscript
      match Text.readInteger digits with
      | .error .malformed => .error (.token (.badNumeral (String.ofList digits)))
      | .error (.tooLong n) => .error (.token (.tooManyDigits n))
      | .ok (.ofNat i) =>
        if i < letterStart then .ok i else .error (.problem (.indexTooLarge text))
      | .ok (.negSucc n) => .error (.token (.badIndex (.negSucc n)))
    else .error (.token (.notNumbered text))

/-- Look up a token. -/
def ofToken (t : Token) : Except Fault Item :=
  match t.kind with
  | .constant =>
    match Constant.ofSpelling? t.text with
    | some c => .ok (.constant c)
    | none => .error (.token (.unknownSpelling t.text))
  | .variableName => (ofVariable t.text).map .var
  | kind => .ok (.symbol kind t.text)

end Item

/-- The wording of a token fault. -/
def TokenFault.message : TokenFault → String
  | .unknownSpelling text => Text.quote text
  | .emptyVariable => "string index out of range"
  | .badName fault => fault.message
  | .notNumbered _ => ""
  | .badNumeral digits =>
    "invalid literal for int() with base 10: " ++
      String.ofList ((Text.quoteChars digits.toList).take Item.shownDigits)
  | .tooManyDigits n =>
    "Exceeds the limit (" ++ toString Text.maxDigits ++
      " digits) for integer string conversion: value has " ++ toString n ++
      " digits; use sys.set_int_max_str_digits() to increase the limit"
  | .badIndex i => "Variable index out of range: " ++ toString i
  | .unknownClass label text => "Unhandled token " ++ label ++ "(" ++ Text.quote text ++ ")"

end SetFormula

import SetFormula.Elimination.Pass
import SetFormula.Expr.Parser
import SetFormula.Expr.Printer
import SetFormula.Settings
import SetFormula.Token.Lexer

/-!
# Desugaring formula texts

A text is read, what is switched on is eliminated, and the result is printed.

* `readFormula` reads a text as one formula.
* `desugarTree` gives the tree of the result and `desugar` its text.
* `answer` gives the text of the result or of the refusal, and `answerLines` does so for every line
  of a file.
-/

namespace SetFormula

/-! ## Failures -/

/-- Why a formula text is refused. -/
inductive Refusal where
  /-- A character starts no token. -/
  | stray (c : Char)
  /-- The text is not a formula. -/
  | problem (p : Problem)
  /-- The formula is nested too deeply. -/
  | tooDeep
  deriving DecidableEq, Repr

/-- The wording of a refusal. -/
def Refusal.message : Refusal → String
  | stray c => "Unexpected character " ++ Text.quote (String.singleton c)
  | problem p => p.message
  | tooDeep => "Formula nested too deeply"

/-- A refusal and the place that it is about. -/
structure Complaint where
  refusal : Refusal
  place : Option Place
  deriving DecidableEq, Repr

/-- The wording of a complaint, after its place if it has one. -/
def Complaint.message (c : Complaint) : String :=
  match c.place with
  | some p => p.text ++ ": " ++ c.refusal.message
  | none => c.refusal.message

/-- Why there is no result. -/
inductive Failure where
  /-- The text is refused; the user is told so. -/
  | refused (c : Complaint)
  /-- A token is at fault in itself. -/
  | badToken (fault : TokenFault)
  /-- The parser is at fault. -/
  | misstep (m : Misstep)
  /-- The switches cannot be read. -/
  | badSettings (fault : SettingsFault)
  deriving DecidableEq, Repr

/-! ## One formula -/

/-- What formulas are desugared with. -/
structure Runtime where
  /-- The number of levels that formulas may be nested where they are read and rewritten. -/
  limit : Nat
  /-- The number of levels that formulas may be nested where they are printed. -/
  printLimit : Nat
  /-- Whether the messages of the journal are put into words, which prints the formulas that they
  are about. -/
  narrated : Bool
  deriving DecidableEq, Repr

/-- Whether a message about a tree can be given. -/
def Runtime.tells (r : Runtime) (e : Expr) : Bool := !r.narrated || e.printLevels ≤ r.printLimit

/-- How formulas are desugared: with what, and which constructs are eliminated. The switches may
have failed to be read, which matters once a formula has been read. -/
structure Setup extends Runtime where
  switches : Except SettingsFault Switches

/-- The complaint that a formula is nested too deeply, about its first token. -/
def tooDeepAt (tokens : List Token) : Failure :=
  .refused ⟨.tooDeep, tokens.head?.map Token.place⟩

/-- The failure to parse a list of tokens, with its place. -/
def ParseFailure.locate (tokens : List Token) : ParseFailure → Failure
  | refused p left => .refused ⟨.problem p, placeOf tokens left⟩
  | badToken fault => .badToken fault
  | tooDeep => tooDeepAt tokens
  | misstep m => .misstep m

/-- The tokens of a text. -/
def readTokens (src : Source) : Except Failure (List Token) :=
  match lex src with
  | .ok tokens => .ok tokens
  | .error e => .error (.refused ⟨.stray e.char, some e.place⟩)

/-- Read a list of tokens as one formula. -/
def readTree (limit : Nat) (tokens : List Token) : Except Failure Expr :=
  match parse limit tokens with
  | .ok e => .ok e
  | .error e => .error (e.locate tokens)

/-- Read a text as one formula. -/
def readFormula (limit : Nat) (src : Source) : Except Failure Expr := do
  readTree limit (← readTokens src)

/-- Eliminate what is switched on, with a message about the result of each pass. -/
def eliminateTelling (r : Runtime) (s : Switches) (e : Expr) : Option Expr :=
  let (steps, result) := eliminationSteps s r.limit e
  if steps.all fun step => r.tells step.2 then result else none

/-- Eliminate what is switched on from the formula with the given tokens. There is a message about
the formula before the switches are read. -/
def eliminateFrom (setup : Setup) (tokens : List Token) (e : Expr) : Except Failure Expr :=
  if setup.tells e then
    match setup.switches with
    | .error fault => .error (.badSettings fault)
    | .ok s =>
      match eliminateTelling setup.toRuntime s e with
      | some result => .ok result
      | none => .error (tooDeepAt tokens)
  else .error (tooDeepAt tokens)

/-- Read a text as one formula and eliminate what is switched on. -/
def desugarTree (setup : Setup) (src : Source) : Except Failure Expr := do
  let tokens ← readTokens src
  let e ← readTree setup.limit tokens
  eliminateFrom setup tokens e

/-- The complaint that a result is nested too deeply to be printed, about the start of its line. -/
def unprintable (src : Source) : Complaint := ⟨.tooDeep, some ⟨src.line, 1, src.file⟩⟩

/-- Read a text as one formula, eliminate what is switched on, and print the result. -/
def desugar (setup : Setup) (src : Source) : Except Failure String := do
  match (← desugarTree setup src).renderWithin setup.printLimit with
  | some text => return text
  | none => .error (.refused (unprintable src))

/-! ## Answers as text -/

/-- The start of an answer that is a refusal. -/
def errorMark : String := "Error: "

/-- A complaint as an answer. -/
def Complaint.answer (c : Complaint) : String := errorMark ++ c.message

/-- The text of the result, or of the complaint if the text is refused. -/
def answer (setup : Setup) (text : String) : Except Failure String :=
  match desugar setup ⟨text, 1, none⟩ with
  | .error (.refused c) => .ok c.answer
  | result => result

/-- The answer to one line of a file. -/
structure LineAnswer where
  number : Nat
  formula : String
  text : String
  accepted : Bool
  deriving DecidableEq, Repr

/-- Whether a line, without the blanks at its ends, is skipped: it is empty or a comment. -/
def isSkipped (line : String) : Bool := line.isEmpty || line.startsWith "#"

/-- The answer to one line of a file that is not skipped. -/
def answerLine (setup : Setup) (file : Option String) (number : Nat) (raw : String) :
    Except Failure LineAnswer :=
  match desugar setup ⟨raw, number, file⟩ with
  | .ok text => .ok ⟨number, Text.trim raw, text, true⟩
  | .error (.refused c) => .ok ⟨number, Text.trim raw, c.answer, false⟩
  | .error e => .error e

/-- The lines of a file that are not skipped, with their numbers from `number` on. -/
def formulaLines (number : Nat) : List String → List (Nat × String)
  | [] => []
  | raw :: rest =>
    if isSkipped (Text.trim raw) then formulaLines (number + 1) rest
    else (number, raw) :: formulaLines (number + 1) rest

/-- The answers to numbered lines, up to the first one without an answer, whose failure is given
with them. -/
def answerNumbered (setup : Setup) (file : Option String) :
    List (Nat × String) → List LineAnswer × Option Failure
  | [] => ([], none)
  | (number, raw) :: rest =>
    match answerLine setup file number raw with
    | .error e => ([], some e)
    | .ok result =>
      let (results, failure) := answerNumbered setup file rest
      (result :: results, failure)

/-- The answers to the lines of a file, up to the first one without an answer, whose failure is
given with them. -/
def answerLines (setup : Setup) (file : Option String) (lines : List String) :
    List LineAnswer × Option Failure :=
  answerNumbered setup file (formulaLines 1 lines)

end SetFormula

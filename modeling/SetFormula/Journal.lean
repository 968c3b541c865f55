import SetFormula.Desugar
import SetFormula.Text.Case

/-!
# The journal

What happens while formulas are desugared is recorded as events. A filter decides which records are
kept: it has a level for everything and may set other levels for single modules.

* `desugarEvents`, `answerEvents` and `linesEvents` are the events of `desugar`, `answer` and
  `answerLines`.
* `LogFilter.parse` reads a filter, and `Gate.ofFilter` makes it ready for use.
* `Gate.keep` is the filtering of records.
-/

namespace SetFormula

/-! ## Levels -/

/-- The named levels, with their numbers. -/
def levelNumbers : List (String × Nat) :=
  [("TRACE", 5), ("DEBUG", 10), ("INFO", 20), ("SUCCESS", 25), ("WARNING", 30), ("ERROR", 40),
    ("CRITICAL", 50)]

/-- The name of a level number. -/
def levelName (n : Int) : String :=
  match levelNumbers.find? fun p => (p.2 : Int) == n with
  | some p => p.1
  | none => "Level " ++ toString n

/-- The level of details. -/
def debugLevel : Nat := 10

/-- The level of ordinary messages. -/
def infoLevel : Nat := 20

/-- The level of problems. -/
def warningLevel : Nat := 30

/-! ## Events -/

/-- What is recorded. -/
inductive Event where
  | lexed (tokens : Nat)
  | parsed (e : Expr)
  | started (e : Expr) (enabled : List String)
  | passed (p : Pass) (e : Expr)
  | finished (e : Expr)
  | refusedText (source error : String)
  | refusedLine (line : Nat) (error : String)
  | commandStarted (enabled : List String)
  | batchStarted (file : String) (enabled : List String)
  | batchFinished (failed : Nat)
  deriving DecidableEq, Repr

/-- A record of an event: its level, the module and the function that it is about, and its
message. -/
structure Record where
  level : Int
  origin : String
  function : String
  message : String
  deriving DecidableEq, Repr

namespace Event

/-- The level of an event. -/
def level : Event → Nat
  | commandStarted _ | batchStarted _ _ | batchFinished _ => infoLevel
  | _ => debugLevel

/-- The module that an event is about. -/
def origin : Event → String
  | lexed _ | parsed _ | refusedText _ _ | refusedLine _ _ => "setsugar.pipeline"
  | started _ _ | passed _ _ | finished _ => "setsugar.core.transformer"
  | commandStarted _ | batchStarted _ _ | batchFinished _ => "setsugar.cli.app"

/-- The function that an event is about. -/
def function : Event → String
  | lexed _ | parsed _ => "translate"
  | refusedText _ _ => "run"
  | refusedLine _ _ => "run_lines"
  | started _ _ | passed _ _ | finished _ => "transform"
  | commandStarted _ => "translate_command"
  | batchStarted _ _ | batchFinished _ => "batch"

/-- The message of an event. -/
def message : Event → String
  | lexed n => "pipeline.lex tokens=" ++ toString n
  | parsed e => "pipeline.parse formula=" ++ e.render
  | started e enabled =>
    "transform.start formula=" ++ e.render ++ " enabled=" ++ Text.quoteList enabled
  | passed p e => "transform.pass name=" ++ p.name ++ " formula=" ++ e.render
  | finished e => "transform.done formula=" ++ e.render
  | refusedText source error =>
    "pipeline.error source=" ++ Text.quote source ++ " error=" ++ error
  | refusedLine line error => "pipeline.error line=" ++ toString line ++ " error=" ++ error
  | commandStarted enabled => "translate.start enabled=" ++ Text.quoteList enabled
  | batchStarted file enabled =>
    "batch.start file=" ++ file ++ " enabled=" ++ Text.quoteList enabled
  | batchFinished failed => "batch.done failed=" ++ toString failed

/-- The record of an event. -/
def record (e : Event) : Record := ⟨e.level, e.origin, e.function, e.message⟩

end Event

/-! ## Events of desugaring -/

/-- Whether the message of an event can be given. -/
def Event.isTold (r : Runtime) : Event → Bool
  | parsed e | started e _ | passed _ e | finished e => r.tells e
  | _ => true

/-- The events of an elimination. -/
def eliminateEvents (s : Switches) (limit : Nat) (e : Expr) : List Event :=
  let (steps, result) := eliminationSteps s limit e
  .started e s.onNames :: steps.map (fun step => .passed step.1 step.2) ++
    result.toList.map .finished

/-- The events of reading a text and eliminating what is switched on. The first one whose message
cannot be given is the end. -/
def desugarEvents (setup : Setup) (src : Source) : List Event :=
  match readTokens src with
  | .error _ => []
  | .ok tokens =>
    .lexed tokens.length ::
      match readTree setup.limit tokens with
      | .error _ => []
      | .ok e =>
        let events := match setup.switches with
          | .error _ => []
          | .ok s => eliminateEvents s setup.limit e
        (.parsed e :: events).takeWhile (Event.isTold setup.toRuntime)

/-- The events of `answer`. -/
def answerEvents (setup : Setup) (text : String) : List Event :=
  let src : Source := ⟨text, 1, none⟩
  desugarEvents setup src ++
    match desugar setup src with
    | .error (.refused c) => [.refusedText text c.message]
    | _ => []

/-- The events of `answerLine`, and whether the line has an answer. -/
def lineEvents (setup : Setup) (file : Option String) (number : Nat) (raw : String) :
    List Event × Bool :=
  let src : Source := ⟨raw, number, file⟩
  let events := desugarEvents setup src
  match desugar setup src with
  | .error (.refused c) => (events ++ [.refusedLine number c.message], true)
  | .error _ => (events, false)
  | .ok _ => (events, true)

/-- The events of `answerNumbered`. -/
def numberedEvents (setup : Setup) (file : Option String) : List (Nat × String) → List Event
  | [] => []
  | (number, raw) :: rest =>
    match lineEvents setup file number raw with
    | (events, true) => events ++ numberedEvents setup file rest
    | (events, false) => events

/-- The events of `answerLines`. -/
def linesEvents (setup : Setup) (file : Option String) (lines : List String) : List Event :=
  numberedEvents setup file (formulaLines 1 lines)

/-! ## Filters -/

/-- A filter as it is written: a level for everything, and for single modules a level, or nothing to
silence them. -/
structure LogFilter where
  level : String
  modules : List (String × Option String)
  deriving DecidableEq, Repr

namespace LogFilter

/-- Add one part of the text of a filter. -/
def addPart (f : LogFilter) (part : String) : LogFilter :=
  match Text.cutAt? '=' part with
  | none => { f with level := part }
  | some (name, level) =>
    let level := Text.trim level
    let value := if level = "false" then none else some (Text.upper level)
    { f with modules := Entries.set (Text.trim name) value f.modules }

/-- Read a filter: a level, and entries `module=level`, separated by commas, in letters of any
case. -/
def parse (text : String) : LogFilter :=
  let parts := ((Text.commaParts (Text.lower text)).map Text.trim).filter (!·.isEmpty)
  parts.foldl addPart ⟨"warning", []⟩

/-- All entries of a filter. The level for everything is the entry of the empty name and comes
first. -/
def entries (f : LogFilter) : List (String × Option String) :=
  f.modules.foldl (fun es e => Entries.set e.1 e.2 es) [("", some (Text.upper f.level))]

end LogFilter

/-- A level of a filter that does not exist. -/
structure UnknownLevel where
  name : String
  level : String
  deriving DecidableEq, Repr

/-- The wording of an unknown level. -/
def UnknownLevel.message (u : UnknownLevel) : String :=
  "The filter dict contains a module '" ++ u.name ++
    "' associated to a level name which does not exist: '" ++ u.level ++ "'"

/-- A filter whose levels are numbers: the least level that is kept for a module, or nothing if the
module is silenced. -/
structure Gate where
  entries : List (String × Option Nat)
  deriving DecidableEq, Repr

namespace Gate

/-- The number of the level of an entry. -/
def ofEntry : String × Option String → Except UnknownLevel (String × Option Nat)
  | (name, none) => .ok (name, none)
  | (name, some level) =>
    match levelNumbers.lookup level with
    | some n => .ok (name, some n)
    | none => .error ⟨name, level⟩

/-- A filter ready for use; its first entry with an unknown level is refused. -/
def ofFilter (f : LogFilter) : Except UnknownLevel Gate := do
  return ⟨← f.entries.mapM ofEntry⟩

/-- The name of the enclosing module; empty for a module at the top. -/
def parent (name : List Char) : List Char :=
  ((name.reverse.dropWhile (· != '.')).drop 1).reverse

/-- The entry for a module: its own, or that of the nearest enclosing module that has one. There are
at most `n` enclosing modules. -/
def entryFor (gate : Gate) : Nat → List Char → Option (Option Nat)
  | 0, _ => gate.entries.lookup ""
  | n + 1, name =>
    match gate.entries.lookup (String.ofList name) with
    | some e => some e
    | none => gate.entryFor n (parent name)

/-- Whether a record of the given level about a module is kept. -/
def keeps (gate : Gate) (name : String) (level : Int) : Bool :=
  match gate.entryFor name.length name.toList with
  | some (some least) => (least : Int) ≤ level
  | some none => false
  | none => true

/-- The records of the events that are kept. -/
def keep (gate : Gate) (events : List Event) : List Record :=
  (events.filter fun e => gate.keeps e.origin e.level).map Event.record

/-- The messages from other programs that are kept, with the names of their levels. Those below the
level of problems are dropped in any case; the others meet the level for everything. -/
def forward (gate : Gate) (messages : List (Int × String)) : List (String × String) :=
  (messages.filter fun m => (warningLevel : Int) ≤ m.1 && gate.keeps "" m.1).map fun m =>
    (levelName m.1, m.2)

end Gate

end SetFormula

import SetFormula.Journal
import SetFormula.Shell

/-!
# The command line

The commands are `translate FORMULA`, `batch FILE`, `shell` and `switches`. All but the last take
the options `--only NAMES` and `--skip NAMES`, which may be repeated. Without arguments the shell
starts.

* `Invocation.parse` reads the arguments.
* `perform` carries out a command in a directory and an environment.
-/

namespace SetFormula.CommandLine

/-! ## Arguments -/

/-- What the arguments ask for. -/
inductive Task where
  | desugar (formula : String)
  | batch (path : String)
  | shell
  | switches
  deriving DecidableEq, Repr

/-- A task with the values of its options, if they are given. -/
structure Invocation where
  task : Task
  only : Option (List String) := none
  skip : Option (List String) := none
  deriving DecidableEq, Repr

/-- The arguments of a command, sorted out. -/
structure Arguments where
  positional : List String := []
  only : List String := []
  skip : List String := []
  deriving DecidableEq, Repr

/-- Whether an argument is an option: a dash and more. -/
def isOption (argument : String) : Bool := argument.startsWith "-" && 1 < argument.length

/-- Give an option a value, if there is such an option. -/
def Arguments.setOption? (a : Arguments) (name value : String) : Option Arguments :=
  match name with
  | "--only" => some { a with only := a.only ++ [value] }
  | "--skip" => some { a with skip := a.skip ++ [value] }
  | _ => none

/-- Sort out the arguments of a command. Options may stand anywhere before `--`; the value of an
option follows an equals sign or is the next argument. Nothing is returned for wrong usage. -/
def Arguments.collect (options : Bool) (a : Arguments) : List String → Option Arguments
  | [] => some a
  | "--" :: rest => some { a with positional := a.positional ++ rest }
  | argument :: rest =>
    if !isOption argument then
      Arguments.collect options { a with positional := a.positional ++ [argument] } rest
    else if !options then none
    else
      match Text.cutAt? '=' argument, rest with
      | some (name, value), rest =>
        match a.setOption? name value with
        | some a => Arguments.collect options a rest
        | none => none
      | none, value :: rest =>
        match a.setOption? argument value with
        | some a => Arguments.collect options a rest
        | none => none
      | none, [] => none

/-- The values of an option, or nothing if it is not given. -/
def given (values : List String) : Option (List String) :=
  if values.isEmpty then none else some values

/-- Read a command with its arguments; nothing is returned for wrong usage. -/
def Invocation.ofCommand? (command : String) (arguments : List String) : Option Invocation := do
  let a ← Arguments.collect (command != "switches") {} arguments
  let task ← match command, a.positional with
    | "translate", [formula] => some (.desugar formula)
    | "batch", [path] => some (.batch path)
    | "shell", [] => some .shell
    | "switches", [] => some .switches
    | _, _ => none
  return ⟨task, given a.only, given a.skip⟩

/-- Read the arguments; nothing is returned for wrong usage. -/
def Invocation.parse (arguments : List String) : Option Invocation :=
  match arguments with
  | [] => some ⟨.shell, none, none⟩
  | "--" :: command :: rest => Invocation.ofCommand? command rest
  | ["--"] => some ⟨.shell, none, none⟩
  | command :: rest => Invocation.ofCommand? command rest

/-- The names in the values of an option, which are lists separated by commas; nothing if there are
no names. -/
def parseNames (values : Option (List String)) : Option (List String) := do
  let parts := (← values).flatMap Text.commaParts
  let names := (parts.map Text.trim).filter (!·.isEmpty)
  if names.isEmpty then none else some (sortNames names.eraseDups)

/-! ## Files -/

/-- A directory: the names of its files, with their texts. -/
abbrev Directory := List (String × String)

/-- A path without empty and `.` components. -/
def normalizePath (path : String) : String :=
  let parts := (Text.splitAt '/' path.toList).map String.ofList
  let kept := "/".intercalate (parts.filter fun p => p != "" && p != ".")
  let rooted := if path.startsWith "/" then "/" ++ kept else kept
  if rooted.isEmpty then "." else rooted

/-! ## Performing -/

/-- Why a command ends early. -/
inductive Escape where
  /-- The failure of a formula or of the settings. -/
  | failure (f : Failure)
  /-- A level of the log filter that does not exist. -/
  | unknownLevel (u : UnknownLevel)
  deriving DecidableEq, Repr

/-- What a command does: its exit code, what it prints, and the records that it keeps. -/
structure Outcome where
  exit : Nat
  stdout : String := ""
  stderr : String := ""
  console : String := ""
  log : List Record := []
  escape : Option Escape := none

/-- The exit code for wrong usage. -/
def usageExit : Nat := 2

/-- The outcome of wrong usage. -/
def usageError : Outcome := { exit := usageExit }

/-- The outcome of a command that ends early. -/
def escaped (e : Escape) : Outcome := { exit := 1, escape := some e }

/-- The number of levels that formulas may be nested in the program. -/
def nestingLimit : Nat := 400

/-- What the program has. All messages go through the gate in words, the ones that are dropped as
well. -/
def programRuntime : Runtime := ⟨nestingLimit, nestingLimit, true⟩

/-- What a command is carried out in. -/
structure World where
  runtime : Runtime := programRuntime
  environment : Environment := {}
  directory : Directory := []
  /-- What is typed in the shell. -/
  keys : String := ""

/-- The gate for log records that the environment sets. -/
def openGate (env : Environment) : Except Escape (JournalProfile × Gate) := do
  let settings ← match JournalSettings.read env with
    | .ok settings => .ok settings
    | .error e => .error (.failure (.badSettings e))
  match Gate.ofFilter (LogFilter.parse settings.filter) with
  | .ok gate => .ok (settings.profile, gate)
  | .error u => .error (.unknownLevel u)

/-- The records that go to the log: those that the gate keeps, unless the shell's own display takes
them. -/
def logged (profile : JournalProfile) (gate : Gate) (events : List Event) : List Record :=
  match profile with
  | .standard => gate.keep events
  | .shell => []

/-- Desugar one formula. -/
def desugarFormula (r : Runtime) (s : Switches) (log : List Event → List Record)
    (formula : String) : Outcome :=
  let setup : Setup := ⟨r, .ok s⟩
  let src : Source := ⟨formula, 1, none⟩
  let records := log (.commandStarted s.onNames :: desugarEvents setup src)
  match desugar setup src with
  | .ok text => { exit := 0, stdout := text ++ "\n", log := records }
  | .error (.refused c) => { exit := 1, stderr := c.answer ++ "\n", log := records }
  | .error e => { exit := 1, log := records, escape := some (.failure e) }

/-- The text of the answers to the lines of a file. -/
def batchText (results : List LineAnswer) : String :=
  "".intercalate (results.map fun r => r.formula ++ "\n  " ++ r.text ++ "\n")

/-- Desugar the formulas of a file. -/
def batchFile (r : Runtime) (s : Switches) (log : List Event → List Record) (file text : String) :
    Outcome :=
  let setup : Setup := ⟨r, .ok s⟩
  let lines := Text.lines text
  let (results, failure) := answerLines setup (some file) lines
  let events := Event.batchStarted file s.onNames :: linesEvents setup (some file) lines
  let failed := (results.filter fun r => !r.accepted).length
  match failure with
  | some e =>
    { exit := 1, stdout := batchText results, log := log events, escape := some (.failure e) }
  | none =>
    { exit := if failed = 0 then 0 else 1
      stdout := batchText results
      log := log (events ++ [.batchFinished failed]) }

/-- Run the shell on the typed keys. -/
def runShell (r : Runtime) (s : Switches) (keys : String) : Outcome :=
  let (session, failure) := Shell.session r s keys
  match failure with
  | some e => { exit := 1, console := session.output, escape := some (.failure e) }
  | none => { exit := 0, console := session.output }

/-- List the switches. -/
def listSwitches (s : Switches) : Outcome :=
  let row (w : Switch) : String :=
    padRight 17 w.name ++ " " ++ padRight 3 (Shell.stateWord (s w)) ++ "  " ++ w.description ++ "\n"
  { exit := 0, stdout := "".intercalate (Switch.all.map row) }

/-- Carry out a task that needs a log and switches. The log is set up before the switches are
read. -/
def withSwitches (world : World) (i : Invocation)
    (act : Switches → (List Event → List Record) → Outcome) : Outcome :=
  match openGate world.environment with
  | .error e => escaped e
  | .ok (profile, gate) =>
    match chooseSwitches world.environment (parseNames i.only) (parseNames i.skip) with
    | .error _ => usageError
    | .ok s => act s (logged profile gate)

/-- Carry out a command. -/
def perform (world : World) (arguments : List String) : Outcome :=
  match Invocation.parse arguments with
  | none => usageError
  | some i =>
    match i.task with
    | .desugar formula =>
      withSwitches world i fun s log => desugarFormula world.runtime s log formula
    | .batch path =>
      let file := normalizePath path
      match world.directory.lookup file with
      | none => usageError
      | some text => withSwitches world i fun s log => batchFile world.runtime s log file text
    | .shell => withSwitches world i fun s _ => runShell world.runtime s world.keys
    | .switches =>
      match chooseSwitches world.environment none none with
      | .error e => escaped (.failure (.badSettings e))
      | .ok s => listSwitches s

end SetFormula.CommandLine

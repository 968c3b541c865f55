import SetFormula.CommandLine
import SetFormula.Expr.Description

/-!
# The program

`main` reads the environment and the files that a command needs, carries it out, and prints what it
gives.
-/

namespace SetFormula.CommandLine

/-- The settings that are read from environment variables. -/
def settingNames : List String := "log_filter" :: "log_profile" :: Switch.names

/-- The environment variables of the program, in small and in capital letters, and the `.env`
file. -/
def readEnvironment : IO Environment := do
  let mut found := []
  for setting in settingNames do
    let name := Environment.nameStart ++ setting
    for spelling in [name.toUpper, name] do
      if let some value ← IO.getEnv spelling then
        found := found ++ [(spelling, value)]
  let dotenv ← try some <$> IO.FS.readFile ".env" catch _ => pure none
  return ⟨found, dotenv⟩

/-- The directory as far as a task needs it. -/
def readDirectory : Task → IO Directory
  | .batch path => do
    try
      return [(normalizePath path, ← IO.FS.readFile path)]
    catch _ => return []
  | _ => return []

/-- The wording of a failure. -/
def failureMessage : Failure → String
  | .refused c => c.message
  | .badToken fault => fault.message
  | .misstep .pastEnd => "There is no item to move past"
  | .misstep .notASymbol => "The item is not a symbol"
  | .misstep .unending => "The rounds of a loop are used up"
  | .badSettings (.unknownSwitches names) => unknownSwitchMessage names
  | .badSettings (.badValues fields) =>
    "Invalid settings: " ++ ", ".intercalate (fields.map (·.1))

/-- The wording of an early end. -/
def Escape.message : Escape → String
  | failure f => failureMessage f
  | unknownLevel u => u.message

/-- The line of a record. -/
def Record.line (r : Record) : String :=
  padRight 6 (levelName r.level) ++ " | " ++ r.origin ++ ":" ++ r.function ++ " | " ++ r.message

/-- Print what a command gives; the result is its exit code. -/
def emit (o : Outcome) : IO UInt32 := do
  for r in o.log do
    IO.eprintln (Record.line r)
  IO.print o.stdout
  IO.eprint o.stderr
  if let some e := o.escape then IO.eprintln e.message
  if o.exit = usageExit then IO.eprintln "Wrong usage"
  return o.exit.toUInt32

/-- Answer lines from standard input until it ends or the session does. -/
partial def converse (r : Runtime) (s : Switches) : IO UInt32 := do
  IO.print "set> "
  (← IO.getStdout).flush
  let line ← (← IO.getStdin).getLine
  if line.isEmpty then return 0
  match Shell.reply r s line with
  | .error e => emit (escaped (.failure e))
  | .ok (answer, s) =>
    unless answer.text.isEmpty do IO.println answer.text
    if answer.exit then return 0 else converse r s

/-- Start the shell. -/
def startShell (world : World) (i : Invocation) : IO UInt32 := do
  match openGate world.environment with
  | .error e => emit (escaped e)
  | .ok _ =>
    match chooseSwitches world.environment (parseNames i.only) (parseNames i.skip) with
    | .error _ => emit usageError
    | .ok s =>
      IO.println Shell.greeting
      converse world.runtime s

end SetFormula.CommandLine

open SetFormula.CommandLine in
/-- Carry out the command that the arguments ask for. -/
def main (arguments : List String) : IO UInt32 := do
  let environment ← readEnvironment
  match Invocation.parse arguments with
  | none => emit usageError
  | some i =>
    let world : World := { environment, directory := ← readDirectory i.task }
    match i.task with
    | .shell => startShell world i
    | _ => emit (perform world arguments)

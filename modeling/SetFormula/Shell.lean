import SetFormula.Desugar

/-!
# The shell

A session answers lines one by one. A line that starts with a colon is a command, which may change
the switches; any other line is a formula to desugar.

* `reply` answers one line, `replies` a list of them, and `run` does so after the switches have been
  read.
* `session` is a whole session of typed keys.
-/

namespace SetFormula.Shell

/-- The answer to one line: its text, whether it reports an error, and whether the session ends. -/
structure Reply where
  text : String
  error : Bool := false
  exit : Bool := false
  deriving DecidableEq, Repr

/-- The text of the help command. -/
def helpPage : String :=
  "\n".intercalate
    ["Enter a formula to desugar it with the enabled switches.",
      "",
      "  :config          show the switches",
      "  :toggle NAME     turn one switch on or off",
      "  :all / :none     turn every switch on / off",
      "  :symbols         list the accepted spellings of every symbol",
      "  :help            show this help",
      "  :quit            leave the shell"]

/-- The greeting at the start of a session. -/
def greeting : String := "setsugar: type :help for commands, :quit to leave."

/-- The word for the state of a switch. -/
def stateWord (on : Bool) : String := if on then "on" else "off"

/-- The switches as text, one on a line. -/
def describeSwitches (s : Switches) : String :=
  let width := Switch.names.foldl (fun w n => max w n.length) 0
  "\n".intercalate
    (Switch.all.map fun w => padRight width w.name ++ "  " ++ stateWord (s w))

/-! ## Commands -/

/-- The commands. -/
inductive Command where
  | quit
  | help
  | config
  | toggle (name : String)
  | all
  | none
  | symbols
  | unknown (name : String)
  deriving DecidableEq, Repr

/-- The command on a line: the word up to the first space, and what follows without blanks at its
ends. -/
def Command.parse (line : String) : Command :=
  let (word, argument) := (Text.cutAt? ' ' line).getD (line, "")
  match word with
  | ":quit" | ":q" => .quit
  | ":help" | ":h" => .help
  | ":config" => .config
  | ":toggle" => .toggle (Text.trim argument)
  | ":all" => .all
  | ":none" => .none
  | ":symbols" => .symbols
  | _ => .unknown word

/-- Carry out a command: the answer, and the switches afterwards. -/
def Command.run (s : Switches) : Command → Reply × Switches
  | quit => (⟨"", false, true⟩, s)
  | help => (⟨helpPage, false, false⟩, s)
  | config => (⟨describeSwitches s, false, false⟩, s)
  | toggle name =>
    match Switch.ofName? name with
    | some w =>
      let s := s.toggle w
      (⟨name ++ ": " ++ stateWord (s w), false, false⟩, s)
    | Option.none => (⟨unknownSwitchMessage [name], true, false⟩, s)
  | all => (⟨describeSwitches .allOn, false, false⟩, .allOn)
  | none => (⟨describeSwitches .allOff, false, false⟩, .allOff)
  | symbols => (⟨symbolListing, false, false⟩, s)
  | unknown name => (⟨"Unknown command " ++ name ++ "; type :help", true, false⟩, s)

/-! ## Lines -/

/-- The answer to a formula. -/
def formulaReply (r : Runtime) (s : Switches) (line : String) : Except Failure Reply :=
  match desugar ⟨r, .ok s⟩ ⟨line, 1, none⟩ with
  | .ok text => .ok ⟨text, false, false⟩
  | .error (.refused c) => .ok ⟨c.answer, true, false⟩
  | .error e => .error e

/-- Answer one line: the answer, and the switches afterwards. -/
def reply (r : Runtime) (s : Switches) (raw : String) : Except Failure (Reply × Switches) :=
  let line := Text.trim raw
  if line.isEmpty then .ok (⟨"", false, false⟩, s)
  else if line.startsWith ":" then .ok ((Command.parse line).run s)
  else (formulaReply r s line).map (·, s)

/-- Answer lines one by one. Each answer comes with the switches after it. -/
def replies (r : Runtime) (s : Switches) :
    List String → Except Failure (List (Reply × Switches))
  | [] => .ok []
  | line :: lines => do
    let (answer, s) ← reply r s line
    return (answer, s) :: (← replies r s lines)

/-- Start a shell, which reads the switches, and answer lines in it. -/
def run (setup : Setup) (lines : List String) : Except Failure (List (Reply × Switches)) :=
  match setup.switches with
  | .error fault => .error (.badSettings fault)
  | .ok s => replies setup.toRuntime s lines

/-! ## Sessions -/

/-- A session in progress: the switches, and what has been printed. -/
structure Session where
  switches : Switches
  output : String

/-- The key that ends a line. -/
def enterKey : Char := '\r'

/-- The key that drops the line being typed. -/
def interruptKey : Char := '\x03'

/-- The key that ends the session, on an empty line. -/
def endKey : Char := '\x04'

/-- Print a text on a line of its own, unless it is empty. -/
def Session.print (session : Session) (text : String) : Session :=
  if text.isEmpty then session else { session with output := session.output ++ text ++ "\n" }

/-- Go on with a session: `typed` is the line being typed, last key first. -/
def typeKeys (r : Runtime) (session : Session) (typed : List Char) :
    List Char → Session × Option Failure
  | [] => (session, none)
  | key :: keys =>
    if key = enterKey then
      match reply r session.switches (String.ofList typed.reverse) with
      | .error e => (session, some e)
      | .ok (answer, s) =>
        let session := Session.print { session with switches := s } answer.text
        if answer.exit then (session, none) else typeKeys r session [] keys
    else if key = interruptKey then typeKeys r session [] keys
    else if key = endKey then
      if typed.isEmpty then (session, none) else typeKeys r session typed keys
    else typeKeys r session (key :: typed) keys

/-- A session with the given keys typed: the session at its end, and the failure that ended it, if
any. -/
def session (r : Runtime) (s : Switches) (keys : String) : Session × Option Failure :=
  typeKeys r (Session.print ⟨s, ""⟩ greeting) [] keys.toList

end SetFormula.Shell

import SetFormula.Entries
import SetFormula.Switch
import SetFormula.Text.Blank
import SetFormula.Text.Lines

/-!
# Settings

Switches and log settings come from the caller, from environment variables or from a `.env` file, in
this order of strength. A value that a stronger source overrides is not looked at.

* `readSwitches` reads all switches; one that is set nowhere is on.
* `chooseSwitches` starts from a list of names, or from the settings, and turns off further names.
* `JournalSettings.read` reads the log settings.
-/

namespace SetFormula

/-! ## The environment -/

/-- What settings are read from. -/
structure Environment where
  /-- The environment variables, with their values. -/
  assigned : List (String × String) := []
  /-- The text of the `.env` file, if there is one. -/
  dotenv : Option String := none
  deriving Repr

namespace Environment

/-- The common start of the names of environment variables. -/
def nameStart : String := "setsugar_"

/-- The entry on a line of a `.env` file; blank lines and comments have none. -/
def entry? (line : String) : Option (String × String) :=
  let line := Text.trim line
  if line.startsWith "#" then none
  else (Text.cutAt? '=' line).map fun p => (Text.trim p.1, Text.trim p.2)

/-- The entries of the `.env` file. Names that differ in the case of a letter are different ones
here. -/
def entries (env : Environment) : List (String × String) :=
  Entries.merge ((Text.lines (env.dotenv.getD "")).filterMap entry?)

/-- The value of a setting: that of the environment variable, or else of the `.env` file. -/
def get? (env : Environment) (setting : String) : Option String :=
  let name := nameStart ++ setting
  match Entries.lastNamed? name env.assigned with
  | some v => some v
  | none => Entries.lastNamed? name env.entries

end Environment

/-! ## Faults -/

/-- What is wrong with the value of a setting. -/
inductive ValueFault where
  /-- The value is of a kind that may stand for on or off, but does not. -/
  | unreadable
  /-- The value is of a kind that never stands for on or off. -/
  | wrongKind
  /-- The value is not one of the choices. -/
  | notAChoice
  /-- Settings do not change. -/
  | frozen
  deriving DecidableEq, Repr

/-- Why there are no settings. -/
inductive SettingsFault where
  /-- The named settings have bad values. -/
  | badValues (fields : List (String × ValueFault))
  /-- The names are those of no switch. -/
  | unknownSwitches (names : List String)
  deriving DecidableEq, Repr

/-- The wording of unknown names. -/
def unknownSwitchMessage (names : List String) : String :=
  "Unknown switch: " ++ ", ".intercalate names ++ "; expected one of " ++
    ", ".intercalate Switch.names

/-! ## Values -/

/-- A value that a caller gives to a switch. -/
inductive SettingValue where
  | flag (b : Bool)
  | integer (n : Int)
  /-- The number `mantissa / 10 ^ exponent`, written with a fraction. -/
  | decimal (mantissa : Int) (exponent : Nat)
  | text (s : String)
  /-- Nothing, a list or a record. -/
  | other
  deriving DecidableEq, Repr

/-- The words for on. -/
def onWords : List String := ["1", "on", "t", "true", "y", "yes"]

/-- The words for off. -/
def offWords : List String := ["0", "off", "f", "false", "n", "no"]

/-- On or off, as a word in letters of any case. -/
def readWord (s : String) : Except ValueFault Bool :=
  if onWords.contains s.toLower then .ok true
  else if offWords.contains s.toLower then .ok false
  else .error .unreadable

/-- On or off, as an integer. -/
def readFlagNumber (n : Int) : Except ValueFault Bool :=
  if n = 0 then .ok false else if n = 1 then .ok true else .error .unreadable

/-- Numbers from `-flagRange` up to `flagRange` are of a kind that may stand for on or off. -/
def flagRange : Int := Int.pow 2 63

/-- On or off, as the value stands for it. A number written with a fraction stands for what its whole
part does if the fraction is zero. -/
def SettingValue.read : SettingValue → Except ValueFault Bool
  | flag b => .ok b
  | integer n => if -flagRange ≤ n ∧ n < flagRange then readFlagNumber n else .error .wrongKind
  | decimal m k =>
    let whole := m / Int.pow 10 k
    if m % Int.pow 10 k = 0 ∧ -flagRange < whole ∧ whole < flagRange then readFlagNumber whole
    else .error .wrongKind
  | text s => readWord s
  | other => .error .wrongKind

/-! ## Switches -/

/-- The value of a switch: as given under its name in letters of any case, else as in the environment,
else on. -/
def readSwitch (env : Environment) (given : List (String × SettingValue)) (w : Switch) :
    Except ValueFault Bool :=
  match Entries.lastNamed? w.name given with
  | some v => v.read
  | none =>
    match env.get? w.name with
    | some s => readWord s
    | none => .ok true

/-- The fault of a switch, with its name. -/
def switchFault? (env : Environment) (given : List (String × SettingValue)) (w : Switch) :
    Option (String × ValueFault) :=
  match readSwitch env given w with
  | .ok _ => none
  | .error e => some (w.name, e)

/-- Names in the order of their characters. -/
def sortNames (names : List String) : List String := names.mergeSort fun a b => decide (a ≤ b)

/-- The values of all switches. All bad values are reported, in the order of the names. -/
def readSwitches (env : Environment) (given : List (String × SettingValue)) :
    Except SettingsFault Switches :=
  let faults := Switch.all.filterMap (switchFault? env given)
  if faults.isEmpty then .ok fun w => (readSwitch env given w).toOption.getD true
  else .error (.badValues (faults.mergeSort fun a b => decide (a.1 ≤ b.1)))

/-- The switches with the given names. -/
def switchesNamed (names : List String) : Except SettingsFault (List Switch) :=
  let unknown := names.filter fun n => (Switch.ofName? n).isNone
  if unknown.isEmpty then .ok (names.filterMap Switch.ofName?)
  else .error (.unknownSwitches (sortNames unknown.eraseDups))

/-- Only the named switches on. -/
def switchesOn (names : List String) : Except SettingsFault Switches :=
  (switchesNamed names).map Switches.ofList

/-- The named switches off. -/
def switchesOff (s : Switches) (names : List String) : Except SettingsFault Switches :=
  (switchesNamed names).map s.turnOff

/-- The named switch turned over. -/
def switchesToggled (s : Switches) (name : String) : Except SettingsFault Switches := do
  return (← switchesNamed [name]).foldl Switches.toggle s

/-- The named switches on, or the settings of the environment if no list is given, and then further
named ones off. -/
def chooseSwitches (env : Environment) (only skip : Option (List String)) :
    Except SettingsFault Switches := do
  let s ← match only with
    | some names => switchesOn names
    | none => readSwitches env []
  match skip with
  | some names => switchesOff s names
  | none => return s

/-! ## Log settings -/

/-- Where log records go. -/
inductive JournalProfile where
  | standard
  | shell
  deriving DecidableEq, Repr

/-- The name of a profile. -/
def JournalProfile.name : JournalProfile → String
  | standard => "default"
  | shell => "shell"

/-- The log settings: the text of the filter, and the profile. -/
structure JournalSettings where
  filter : String := "warning"
  profile : JournalProfile := .standard
  deriving DecidableEq, Repr

namespace JournalSettings

/-- The profile with the given name. -/
def profileNamed (name : String) : Except SettingsFault JournalProfile :=
  if name = JournalProfile.standard.name then .ok .standard
  else if name = JournalProfile.shell.name then .ok .shell
  else .error (.badValues [("profile", .notAChoice)])

/-- The log settings of the environment. -/
def read (env : Environment) : Except SettingsFault JournalSettings := do
  let profile ← match env.get? "log_profile" with
    | some name => profileNamed name
    | none => .ok .standard
  return ⟨(env.get? "log_filter").getD "warning", profile⟩

end JournalSettings

end SetFormula

import Rankwise.Failure
import Rankwise.Table.Scalar
import Rankwise.Text.Blank

/-!
# Settings

How plans are run can be set by name and through variables of the surroundings. All settings are
switches and are off unless they are turned on.
-/

namespace Rankwise

/-- A switch. -/
inductive Setting where
  | dumpPlans
  | profile
  | runParallel
deriving DecidableEq, Repr

namespace Setting

/-- The switches by increasing name. -/
def all : List Setting := [dumpPlans, profile, runParallel]

/-- The name of the switch. -/
def name : Setting → String
  | dumpPlans => "dump_plans"
  | profile => "profile"
  | runParallel => "run_parallel"

/-- What the switch does. -/
def description : Setting → String
  | dumpPlans => "Log plans before and after optimization"
  | profile => "Log timings of each execution step"
  | runParallel => "Execute plans on the process group"

/-- The variable of the surroundings that sets the switch. -/
def variableName : Setting → String
  | dumpPlans => "LAZYDIST_DUMP_PLANS"
  | profile => "LAZYDIST_PROFILE"
  | runParallel => "LAZYDIST_RUN_PARALLEL"

/-- No switch has this name. -/
def unknown (name : String) : Failure where
  kind := .invalidInput
  message := "Missing setting for '" ++ name ++ "'"

/-- The switch with a name. -/
def named (name : String) : Except Failure Setting :=
  match all.find? fun setting => setting.name = name with
  | some setting => .ok setting
  | none => .error (unknown name)

end Setting

/-- The positions of all switches. -/
structure Settings where
  /-- Plans are run on the workers and not in this process. -/
  runParallel : Bool := false
  /-- Plans are shown before and after they are optimized. -/
  dumpPlans : Bool := false
  /-- The time that each step takes is shown. -/
  profile : Bool := false
deriving DecidableEq, Repr

namespace Settings

/-- The position of a switch. -/
def position (settings : Settings) : Setting → Bool
  | .dumpPlans => settings.dumpPlans
  | .profile => settings.profile
  | .runParallel => settings.runParallel

/-- Turns a switch on or off. -/
def turn (settings : Settings) (setting : Setting) (on : Bool) : Settings :=
  match setting with
  | .dumpPlans => { settings with dumpPlans := on }
  | .profile => { settings with profile := on }
  | .runParallel => { settings with runParallel := on }

/-- A switch is given a value that is no truth value. -/
def notBoolean (setting : Setting) (value : Scalar) : Failure where
  kind := .invalidInput
  message := "Setting expects a boolean"
  fields := [("setting", setting.name), ("value", value.text)]

/-- Gives a value to the switch with a name. -/
def set (settings : Settings) (name : String) (value : Scalar) : Except Failure Settings := do
  let setting ← Setting.named name
  match value.boolean? with
  | some on => return settings.turn setting on
  | none => throw (notBoolean setting value)

/-- The value of the switch with a name. -/
def get (settings : Settings) (name : String) : Except Failure Scalar := do
  return .boolean (settings.position (← Setting.named name))

/-- Gives the switch with a name the value that it has at the start. -/
def reset (settings : Settings) (name : String) : Except Failure Settings := do
  let setting ← Setting.named name
  return settings.turn setting (position {} setting)

/-- The words that turn a switch on and off. -/
def switchWord? (word : String) : Option Bool :=
  match String.ofList ((Text.trimmed word.toList).map Char.toLower) with
  | "1" | "true" | "yes" | "on" => some true
  | "" | "0" | "false" | "no" | "off" => some false
  | _ => none

/-- A variable holds no word for a switch. -/
def notSwitchWord (name value : String) : Failure where
  kind := .invalidInput
  message := "Invalid boolean in environment variable"
  fields := [("variable", name), ("value", value)]

/-- Turns a switch as its variable says, if there is such a variable. -/
def turnByVariable (lookup : String → Option String) (settings : Settings) (setting : Setting) :
    Except Failure Settings :=
  match lookup setting.variableName with
  | none => .ok settings
  | some word =>
    match switchWord? word with
    | some on => .ok (settings.turn setting on)
    | none => .error (notSwitchWord setting.variableName word)

/-- The settings that the variables of the surroundings ask for. -/
def ofVariables (lookup : String → Option String) : Except Failure Settings :=
  [Setting.runParallel, .dumpPlans, .profile].foldlM (turnByVariable lookup) {}

end Settings

end Rankwise

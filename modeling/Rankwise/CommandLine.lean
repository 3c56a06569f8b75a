import Rankwise.Group.InProcess
import Rankwise.Group.Spawner
import Rankwise.Settings

/-!
# The command line

The program lists its settings, scatters a table that it makes up and reports how the table was
partitioned, or serves as one of the workers of a group.

Options of the program stand before the command, options of a command behind it. An option that
takes a value is given once; its value is the next argument, or what follows an equals sign, or for
an option of one letter what follows the letter. Everything else is misuse.
-/

namespace Rankwise

namespace CommandLine

/-- What the program is asked to do. -/
inductive Command where
  | help
  | version
  | settings
  | worker
  /-- Report how a table of a number of rows is partitioned. -/
  | scatter (workers : Option Nat) (rows : Nat)
deriving DecidableEq, Repr

/-- A command with what is asked of the program in general. -/
structure Invocation where
  command : Command
  /-- How often the program is asked to log more. -/
  verbosity : Nat := 0
deriving DecidableEq, Repr

/-- The program's name. -/
def programName : String := "lazydist"

/-- The program's version. -/
def versionName : String := "0.4.0"

/-- The number of rows that are scattered if none is asked for. -/
def defaultRows : Nat := 10

/-- The ways to write log lines. -/
def logModes : List String := ["pretty", "json", "compact"]

/-! Reading arguments. -/

/-- The names of an option that takes a value. -/
structure ValueOption where
  letter : Char
  word : String

/-- The value of an option that stands at the front of the arguments, and the arguments behind it.
-/
def ValueOption.take? (option : ValueOption) : List String → Option (String × List String)
  | [] => none
  | argument :: rest =>
    let word := "--" ++ option.word
    if argument = word || argument = String.ofList ['-', option.letter] then
      match rest with
      | value :: rest => some (value, rest)
      | [] => none
    else if (word ++ "=").toList.isPrefixOf argument.toList then
      some (String.ofList (argument.toList.drop (word.length + 1)), rest)
    else
      match argument.toList with
      | '-' :: letter :: '=' :: value =>
        if letter = option.letter then some (String.ofList value, rest) else none
      | '-' :: letter :: value =>
        if letter = option.letter then some (String.ofList value, rest) else none
      | _ => none

/-- The option for the number of workers. -/
def workersOption : ValueOption := { letter := 'w', word := "workers" }

/-- The option for the number of rows. -/
def rowsOption : ValueOption := { letter := 'r', word := "rows" }

/-- Whether an argument asks for help. -/
def asksForHelp (argument : String) : Bool := argument = "-h" || argument = "--help"

/-- Reads the arguments of the command that scatters, reading no more options than the limit. -/
def scatterWithin (workers rows : Option Nat) : Nat → List String → Option Command
  | _, [] | _, ["--"] => some (.scatter workers (rows.getD defaultRows))
  | 0, _ => none
  | limit + 1, arguments =>
    if (arguments.head?).any asksForHelp then some .help
    else
      match workersOption.take? arguments, rowsOption.take? arguments with
      | some (value, rest), _ =>
        if workers.isSome then none
        else (Text.size? value).bind fun count => scatterWithin (some count) rows limit rest
      | none, some (value, rest) =>
        if rows.isSome then none
        else (Text.size? value).bind fun count => scatterWithin workers (some count) limit rest
      | none, none => none

/-- Reads the arguments of a command that takes none. -/
def withoutArguments (command : Command) : List String → Option Command
  | [] | ["--"] => some command
  | argument :: _ => if asksForHelp argument then some .help else none

/-- Reads the name of a command and its arguments. -/
def command? (name : String) (arguments : List String) : Option Command :=
  match name with
  | "scatter" => scatterWithin none none arguments.length arguments
  | "settings" => withoutArguments .settings arguments
  | "worker" => withoutArguments .worker arguments
  | "help" => if arguments.all ["scatter", "settings", "help"].contains then some .help else none
  | _ => none

/-- Reads letters that stand in one argument. A letter that asks for something at once ends the
reading. -/
def letters? (verbosity : Nat) : List Char → Option (Nat × Option Command)
  | [] => some (verbosity, none)
  | 'v' :: rest => letters? (verbosity + 1) rest
  | 'h' :: _ => some (verbosity, some .help)
  | 'V' :: _ => some (verbosity, some .version)
  | _ => none

/-- Reads the arguments from some place on, given what was asked before. -/
def invocationFrom (verbosity : Nat) (hasLogMode : Bool) : List String → Option Invocation
  | [] => none
  | "--help" :: _ => some { command := .help, verbosity }
  | "--version" :: _ => some { command := .version, verbosity }
  | "--verbose" :: rest => invocationFrom (verbosity + 1) hasLogMode rest
  | ["--log-mode"] => none
  | "--log-mode" :: mode :: rest =>
    if hasLogMode || !logModes.contains mode then none else invocationFrom verbosity true rest
  | argument :: rest =>
    match argument.toList with
    | '-' :: '-' :: option =>
      if !hasLogMode && (logModes.map ("log-mode=" ++ ·)).contains (String.ofList option) then
        invocationFrom verbosity true rest
      else none
    | '-' :: letter :: letters =>
      match letters? verbosity (letter :: letters) with
      | some (verbosity, none) => invocationFrom verbosity hasLogMode rest
      | some (verbosity, some command) => some { command, verbosity }
      | none => none
    | _ => (command? argument rest).map fun command => { command, verbosity }

/-- What the arguments ask for. There is nothing if they are misused. -/
def invocation? (arguments : List String) : Option Invocation := invocationFrom 0 false arguments

/-! Carrying commands out. -/

/-- What the program says, and with which code it ends. -/
structure Outcome where
  code : Nat := 0
  /-- What is written to the standard output. -/
  output : String := ""
  /-- What is written to the standard error. -/
  complaint : String := ""
deriving DecidableEq, Repr

/-- What comes next. -/
inductive Action where
  /-- Say something and end. -/
  | say (outcome : Outcome)
  /-- Serve as a worker, on the standard input and output. -/
  | serve (worker : Worker)

/-- The program fails. -/
def Outcome.ofFailure (failure : Failure) (output : String) : Outcome :=
  { code := 1, output, complaint := "Error: " ++ failure.text ++ "\n" }

/-- The output, or what the failure says. -/
def Outcome.ofResult : Except Failure String → Outcome
  | .ok output => { output }
  | .error failure => ofFailure failure ""

/-- How the program ends as a worker. -/
def Outcome.ofEnd : WorkerEnd → Outcome
  | .exited => {}
  | .failed failure => ofFailure failure ""
  | .vanished | .hung => { code := 1 }

/-- How to use the program. -/
def usage : String :=
  "Usage: " ++ programName ++ " [-v] [--log-mode MODE] <scatter [-w COUNT] [-r COUNT] | settings>\n"

/-- The settings, one per line. -/
def settingsText (settings : Settings) : String :=
  String.join (Setting.all.map fun setting =>
    setting.name ++ " = " ++ (Scalar.boolean (settings.position setting)).text ++ "  # "
      ++ setting.description ++ "\n")

/-- The table that is scattered: numbers in increasing order. -/
def numbered (rows : Nat) : Batch where
  schema := { fields := [{ name := "id", datatype := .int64, nullable := false }] }
  columns := [(List.range rows).map fun row => .int64 (Int64.ofNat row)]
  rows := rows

/-- Where the rows of a table are, one line per rank. -/
def partitionsText (info : Batch) : String :=
  String.join ((List.range info.rows).map fun row =>
    let cell (column : Nat) := ((info.value? column row).map Scalar.text).getD ""
    "rank " ++ cell 0 ++ ": " ++ cell 1 ++ " rows\n")

/-- Scatters a table and asks the workers for their partitions. -/
def scatterReport (id : SpawnerId) (rows : Nat) : Coordinating String := do
  let frame ← id.scatter (numbered rows)
  let computation : Computation := { name := "partition_info", parameters := ["data"] }
  let (_, answer) ← id.submit computation { positional := [.frame frame] }
  let report ← (← Coordinating.ofExcept answer).toFrame
  let info ← report.table
  (report.release : Acting Unit)
  (frame.release : Acting Unit)
  id.reset
  return partitionsText info

/-- Some worker never answers. -/
def unanswered : Failure := .missing "answer of the workers"

/-- Reports how a table is partitioned, with workers that know nothing but texts. -/
def scatter (environment : Named String) (cores : Nat) (options : Environment.GroupOptions)
    (rows : Nat) : Except Failure String :=
  let acting : Acting (Except Stop String) := do
    let id ← SpawnerId.create options
    (scatterReport id rows).run
  let crews : Crews := { registry := Registry.builtins, medium := .text }
  match (acting.run { environment, cores }).run Crews.outside crews with
  | some ((.ok text, _), _) => .ok text
  | some ((.error (.failed failure), _), _) => .error failure
  | some ((.error .unending, _), _) | some ((.error .overflow, _), _) | none => .error unanswered

/-- The options for the group that a report is made with. -/
def groupOptions (environment : Named String) (workers : Option Nat) (verbosity : Nat) :
    Except Failure Environment.GroupOptions := do
  let options ← Environment.GroupOptions.ofVariables environment.get?
  return { options with
    workers := workers.or options.workers, verbosity := max options.verbosity verbosity }

/-- A variable for workers is not there. -/
def missingVariable (name : String) : Failure where
  kind := .protocol
  message := "Missing worker environment variable"
  fields := [("var", name)]

/-- A variable for workers does not hold a number. -/
def invalidVariable (name value : String) : Failure where
  kind := .protocol
  message := "Invalid worker environment variable"
  fields := [("var", name), ("value", value)]

/-- The number that a variable for workers holds. -/
def workerVariable (environment : Named String) (name : String) : Except Failure Nat :=
  match environment.get? name with
  | none => .error (missingVariable name)
  | some value =>
    match Text.size? value with
    | some number => .ok number
    | none => .error (invalidVariable name value)

/-- The worker that the variables describe. -/
def workerOf (environment : Named String) : Except Failure Worker := do
  let rank ← workerVariable environment "LAZYDIST_WORKER_RANK"
  let size ← workerVariable environment "LAZYDIST_WORKER_SIZE"
  return { rank, size, registry := Registry.builtins }

/-- What to do for a command. -/
def Invocation.act (invocation : Invocation) (environment : Named String) (cores : Nat) : Action :=
  match invocation.command with
  | .help => .say { output := usage }
  | .version => .say { output := programName ++ " " ++ versionName ++ "\n" }
  | .settings =>
    .say (.ofResult ((Settings.ofVariables environment.get?).map settingsText))
  | .scatter workers rows =>
    .say (.ofResult do
      scatter environment cores (← groupOptions environment workers invocation.verbosity) rows)
  | .worker =>
    match workerOf environment with
    | .ok worker => .serve worker
    | .error failure => .say (.ofFailure failure "")

/-- What to do for some arguments. -/
def act (arguments : List String) (environment : Named String) (cores : Nat) : Action :=
  match invocation? arguments with
  | some invocation => invocation.act environment cores
  | none => .say { code := 2, complaint := usage }

/-- How the program ends where nothing can be read from the standard input. -/
def Action.withoutInput : Action → Outcome
  | say outcome => outcome
  | serve worker =>
    match Station.deliver worker (.error Crews.closedByCoordinator) (.waiting (worker.next [])) with
    | (_, .ended how) => .ofEnd how
    | (_, .waiting _) => {}

end CommandLine

end Rankwise

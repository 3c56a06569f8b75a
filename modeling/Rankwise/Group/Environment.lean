import Rankwise.Failure
import Rankwise.Named
import Rankwise.Text.Blank

/-!
# Variables of the surroundings

Some variables are handed on to the workers: those whose names start in one of a few ways, and those
that are asked for. Variables also say how many workers there are to be and how much they log.
-/

namespace Rankwise.Environment

/-- Variables whose names start so are always handed on. -/
def forwardedStarts : List String :=
  ["LAZYDIST_", "AWS_", "AZURE_", "GOOGLE_", "LD_", "MINIO_", "RUST_LOG", "RUST_BACKTRACE",
    "RAYON_", "OMP", "MKL", "OPENBLAS"]

/-- The variable that is handed on under `libraryVariable` too, a name that does not survive the
start of a process on every system. -/
def librarySource : String := "LAZYDIST_DYLD_INSERT_LIBRARIES"

/-- The name under which the value of `librarySource` is handed on. -/
def libraryVariable : String := "DYLD_INSERT_LIBRARIES"

/-- Whether a variable is handed on under its own name. -/
def isForwarded (asked : List String) (name : String) : Bool :=
  forwardedStarts.any (fun start => start.toList.isPrefixOf name.toList) || asked.contains name

/-- Adds what a variable contributes to the variables that are handed on. -/
def forward (asked : List String) (chosen : Named String) (entry : String × String) :
    Named String :=
  let (name, value) := entry
  let chosen :=
    if name = librarySource then Named.insert libraryVariable value chosen else chosen
  if isForwarded asked name then Named.insert name value chosen else chosen

/-- The variables that are handed on to the workers. -/
def forwarded (environment : List (String × String)) (asked : List String) : Named String :=
  environment.foldl (forward asked) []

/-- There is to be no worker at all. -/
def noWorkers : Failure where
  kind := .invalidInput
  message := "Number of workers must be positive"

/-- A variable does not hold a number of workers. -/
def notWorkerCount (name value : String) : Failure where
  kind := .invalidInput
  message := "Invalid worker count in environment"
  fields := [("var", name), ("value", value)]

/-- The variables that give the number of workers, the more important one first. -/
def countVariables : List String := ["LAZYDIST_NUM_WORKERS", "LAZYDIST_UNIVERSE_SIZE"]

/-- The number of workers that the value of a variable asks for. -/
def countIn (name value : String) : Except Failure Nat :=
  match Text.size? (Text.trim value) with
  | none => .error (notWorkerCount name value)
  | some 0 => .error (noWorkers.withField "var" name)
  | some count => .ok count

/-- The number of workers that the first of these variables asks for that is set. -/
def countFrom {m : Type → Type} [Monad m] (lookup : String → m (Option String)) :
    List String → ExceptT Failure m (Option Nat)
  | [] => return none
  | name :: rest => do
    match ← (lookup name : m (Option String)) with
    | some value => return some (← ExceptT.mk (pure (countIn name value)))
    | none => countFrom lookup rest

/-- The number of workers: the one that is asked for, or else what the variables say, or else the
number of cores. -/
def workerCount {m : Type → Type} [Monad m] (asked : Option Nat)
    (lookup : String → m (Option String)) (cores : Nat) : ExceptT Failure m Nat := do
  match asked with
  | some 0 => throw noWorkers
  | some count => return count
  | none => return (← countFrom lookup countVariables).getD (max cores 1)

/-- How a group of workers is to be started. -/
structure GroupOptions where
  /-- The number of workers, if it is not left to the surroundings. -/
  workers : Option Nat := none
  /-- Further variables to hand on to the workers. -/
  propagate : List String := []
  /-- How much the workers log. -/
  verbosity : Nat := 0
deriving DecidableEq, Repr

/-- A variable does not hold a level of logging. -/
def notVerbosity (value : String) : Failure where
  kind := .invalidInput
  message := "Invalid worker verbosity"
  fields := [("value", value)]

/-- The options that the variables ask for. -/
def GroupOptions.ofVariables (lookup : String → Option String) : Except Failure GroupOptions := do
  let propagate := ((lookup "LAZYDIST_PROPAGATE_ENV").map Text.listed).getD []
  match lookup "LAZYDIST_WORKER_VERBOSE_LEVEL" with
  | none => return { propagate }
  | some value => match Text.natural? 8 (Text.trim value) with
    | some verbosity => return { propagate, verbosity }
    | none => throw (notVerbosity value)

/-- What a process writes into its log. -/
inductive LogLevel where
  | warn
  | info
  | debug
  | trace
deriving DecidableEq, Repr

/-- The level for a number of requests to say more. -/
def LogLevel.ofVerbosity : Nat → LogLevel
  | 0 => warn
  | 1 => info
  | 2 => debug
  | _ => trace

/-- The name of the level. -/
def LogLevel.name : LogLevel → String
  | warn => "WARN"
  | info => "INFO"
  | debug => "DEBUG"
  | trace => "TRACE"

end Rankwise.Environment

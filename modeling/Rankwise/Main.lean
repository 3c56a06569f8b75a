import Rankwise.CommandLine
import Rankwise.Wire.Stream

/-!
# The program

Hands arguments and variables to the command line, says what it says, and serves as a worker on the
standard input and output.
-/

namespace Rankwise.Program

/-- The variables that the program looks at. -/
def variableNames : List String :=
  ["LAZYDIST_RUN_PARALLEL", "LAZYDIST_DUMP_PLANS", "LAZYDIST_PROFILE", "LAZYDIST_NUM_WORKERS",
    "LAZYDIST_UNIVERSE_SIZE", "LAZYDIST_PROPAGATE_ENV", "LAZYDIST_WORKER_VERBOSE_LEVEL",
    "LAZYDIST_WORKER_RANK", "LAZYDIST_WORKER_SIZE"]

/-- The variables that are set. -/
def readVariables : IO (Named String) := do
  let found ← variableNames.filterMapM fun name => do
    return (← IO.getEnv name).map (name, ·)
  return Named.ofList found

/-- Reads up to so many bytes; there are fewer only at the end of the input. -/
partial def readBytes (input : IO.FS.Stream) (count : Nat) : IO (List UInt8) := do
  if count = 0 then return []
  let bytes ← input.read (USize.ofNat (min count 65536))
  if bytes.isEmpty then return []
  return bytes.toList ++ (← readBytes input (count - bytes.size))

/-- Reads the next message. -/
def readMessage (input : IO.FS.Stream) : IO (Except Failure Message) := do
  let start ← readBytes input 4
  let body ← match start with
    | [a, b, c, d] =>
      let length := Message.lengthIn a b c d
      if length ≤ Message.lengthLimit then readBytes input length else pure []
    | _ => pure []
  return match Message.next? (start ++ body) with
    | .ok (some (message, _)) => .ok message
    | .ok none => .error Crews.closedByCoordinator
    | .error failure => .error failure

/-- Writes a message. -/
def writeMessage (output : IO.FS.Stream) (message : Message) : IO (Except Failure Unit) := do
  match message.toBytes with
  | .error failure => return .error failure
  | .ok bytes =>
    output.write bytes.toByteArray
    output.flush
    return .ok ()

/-- Carries a session through. -/
def converse {α : Type} (input output : IO.FS.Stream) : Session α → IO α
  | .done value => return value
  | .send message next => do converse input output (next (← writeMessage output message))
  | .receive next => do converse input output (next (← readMessage input))

/-- Serves until the worker ends. -/
partial def serve (input output : IO.FS.Stream) (worker : Worker) (store : ResultStore) :
    IO WorkerEnd := do
  match ← converse input output (worker.next store (← readMessage input)) with
  | (.ok (), store) => serve input output worker store
  | (.error how, _) => return how

/-- Says what is to be said and gives the code to end with. -/
def say (outcome : CommandLine.Outcome) : IO UInt32 := do
  (← IO.getStdout).putStr outcome.output
  (← IO.getStderr).putStr outcome.complaint
  return UInt32.ofNat outcome.code

end Rankwise.Program

open Rankwise

/-- Does what the arguments ask for and gives the code to end with. -/
def main (arguments : List String) : IO UInt32 := do
  let environment ← Program.readVariables
  match CommandLine.act arguments environment 1 with
  | .say outcome => Program.say outcome
  | .serve worker =>
    let how ← Program.serve (← IO.getStdin) (← IO.getStdout) worker []
    Program.say (.ofEnd how)

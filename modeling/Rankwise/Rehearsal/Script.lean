import Rankwise.Group.Dialogue
import Rankwise.Group.Worker

/-!
# Rehearsing with scripts

The coordinator and a single worker can be tried without the other side. A script says what will be
received and when sending fails, and all that is sent is written down.
-/

namespace Rankwise.Rehearsal

/-- What the workers of a group will send, and what will fail. -/
structure Script where
  /-- The messages that will be received from each rank, in order. -/
  incoming : List (List Message) := []
  /-- How many messages can be sent. -/
  sendLimit : Option Nat := none
  /-- The connection does not close properly. -/
  failsToClose : Bool := false

/-- What the coordinator did. -/
inductive Event where
  | launched (request : LaunchRequest)
  | sent (rank : Nat) (message : Message)
  | closed

/-- A scripted group. -/
structure Act where
  /-- The number of workers. -/
  size : Nat
  script : Script
  /-- How many messages were sent. -/
  sent : Nat := 0

/-- Scripts for the groups to come, the groups so far, and what the coordinator did. -/
structure Stage where
  scripts : List Script := []
  acts : List Act := []
  log : List Event := []

namespace Stage

/-- Nothing is left to receive. -/
def exhausted : Failure := { kind := .protocol, message := "Script exhausted" }

/-- No more can be sent. -/
def refused : Failure := { kind := .protocol, message := "Scripted send failure" }

/-- A failure on a rank. -/
def onRank (failure : Failure) (rank : Nat) : Failure := failure.withField "rank" (toString rank)

/-- Starts the next scripted group. -/
def launch (stage : Stage) (request : LaunchRequest) : Except Failure Link × Stage :=
  let stage := { stage with log := stage.log ++ [Event.launched request] }
  match stage.scripts with
  | [] => (.error { kind := .io, message := "Scripted launch failure" }, stage)
  | script :: scripts =>
    (.ok ⟨stage.acts.length⟩,
      { stage with scripts, acts := stage.acts ++ [({ size := request.workers, script } : Act)] })

/-- Changes a scripted group. -/
def change (stage : Stage) (link : Link) (act : Act) : Stage :=
  { stage with acts := stage.acts.set link.index act }

/-- Takes a message for a rank and writes it down, unless the script says that sending fails. -/
def send (stage : Stage) (link : Link) (rank : Nat) (message : Message) :
    Except Failure Unit × Stage :=
  match stage.acts[link.index]? with
  | none => (.error (onRank refused rank), stage)
  | some act =>
    if act.size ≤ rank || act.script.sendLimit.any (· ≤ act.sent) then
      (.error (onRank refused rank), stage)
    else
      let stage := stage.change link { act with sent := act.sent + 1 }
      (.ok (), { stage with log := stage.log ++ [Event.sent rank message] })

/-- Gives the next message that the script has for a rank. -/
def receive (stage : Stage) (link : Link) (rank : Nat) : Except Failure Message × Stage :=
  match stage.acts[link.index]? with
  | none => (.error (onRank exhausted rank), stage)
  | some act =>
    match act.script.incoming[rank]? with
    | some (message :: rest) =>
      let script := { act.script with incoming := act.script.incoming.set rank rest }
      (.ok message, stage.change link { act with script })
    | _ => (.error (onRank exhausted rank), stage)

/-- Writes down that the connection is closed. -/
def shutdown (stage : Stage) (link : Link) : Except Failure Unit × Stage :=
  let stage := { stage with log := stage.log ++ [Event.closed] }
  if (stage.acts[link.index]?).any fun act => act.script.failsToClose then
    (.error { kind := .protocol, message := "Scripted shutdown failure" }, stage)
  else (.ok (), stage)

/-- What was written down since this was asked last. -/
def takeLog (stage : Stage) : List Event × Stage := (stage.log, { stage with log := [] })

/-- The outside that follows the scripts. -/
def outside : Outside Stage where
  launch _ request stage := some (stage.launch request)
  send link rank message stage := some (stage.send link rank message)
  receive link rank stage := some (stage.receive link rank)
  shutdown link stage := some (stage.shutdown link)

end Stage

/-- A script for a worker, and what the worker has sent. -/
structure Prompt where
  /-- The messages that the worker will receive, in order. -/
  unread : List Message
  /-- How many messages the worker can send. -/
  sendLimit : Option Nat := none
  sent : List Message := []

/-- Carries a session through by a script. -/
def perform {α : Type} : Session α → Prompt → α × Prompt
  | .done value, prompt => (value, prompt)
  | .send message next, prompt =>
    if prompt.sendLimit.any (· ≤ prompt.sent.length) then
      perform (next (.error Stage.refused)) prompt
    else perform (next (.ok ())) { prompt with sent := prompt.sent ++ [message] }
  | .receive next, prompt =>
    match prompt.unread with
    | [] => perform (next (.error Stage.exhausted)) prompt
    | message :: unread => perform (next (.ok message)) { prompt with unread }

/-- Lets a worker carry out commands until it ends. Every command takes a message off the script, so
there are no more commands than messages. -/
def serveWithin (worker : Worker) : Nat → ResultStore → Prompt → WorkerEnd × Prompt
  | 0, _, prompt => (.hung, prompt)
  | limit + 1, store, prompt =>
    match perform (.receive (worker.next store)) prompt with
    | ((.ok (), store), prompt) => serveWithin worker limit store prompt
    | ((.error how, _), prompt) => (how, prompt)

/-- Lets a worker carry out the commands of a script until it ends. -/
def serve (worker : Worker) (prompt : Prompt) : WorkerEnd × Prompt :=
  serveWithin worker (prompt.unread.length + 1) [] prompt

end Rankwise.Rehearsal

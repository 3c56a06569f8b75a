import Rankwise.Group.Computation
import Rankwise.Group.RankFailure

/-!
# Messages

What the coordinator and the workers say to one another. A call consists of a command, the
variables, the skeleton of the arguments, the data that belongs into it, and the computation; the
worker answers that it is done and how it went, hears whether to go on, and hands over its output.
-/

namespace Rankwise

/-- What a worker is told to do next. -/
inductive Command where
  /-- Run a computation. -/
  | execute
  /-- Send the stored partition of a result. -/
  | gather
  /-- Drop the stored partition of a result. -/
  | deleteResult
  /-- Leave. -/
  | exit
deriving DecidableEq, Repr

namespace Command

/-- The small number that stands for the command in a message. -/
def tag : Command → Nat
  | execute => 0
  | gather => 1
  | deleteResult => 2
  | exit => 3

/-- The command that a number stands for. -/
def ofTag? : Nat → Option Command
  | 0 => some execute
  | 1 => some gather
  | 2 => some deleteResult
  | 3 => some exit
  | _ => none

/-- A command is found again by its number. -/
@[simp] theorem ofTag?_tag (command : Command) : ofTag? command.tag = some command := by
  cases command <;> rfl

/-- No command has this number. -/
def unknownTag (tag : Nat) : Failure where
  kind := .protocol
  message := "Unknown command tag: " ++ toString tag

/-- The command as people see it. -/
def text : Command → String
  | execute => "EXECUTE"
  | gather => "GATHER"
  | deleteResult => "DELETE_RESULT"
  | exit => "EXIT"

end Command

/-- How the data for a placeholder reaches the ranks. -/
inductive Transfer where
  /-- A full copy for every rank. -/
  | broadcast
  /-- One block for each rank. -/
  | scatter
  /-- The workers hold it already; only its name is sent. -/
  | lazy
deriving DecidableEq, Repr

/-- How a table of a context reaches the ranks. -/
inductive TableShipment where
  | path (path : String)
  | placeholder (transfer : Transfer)
deriving DecidableEq, Repr

/-- A context whose tables are sent with the call. -/
structure ContextShipment where
  tables : Named TableShipment
  catalog : Option String
  timeZone : Option String
deriving DecidableEq, Repr

/-- An argument in which the tables are replaced by placeholders. -/
inductive Skeleton where
  | value (value : Value)
  | placeholder (transfer : Transfer)
  | tuple (items : List Skeleton)
  | map (entries : List (String × Skeleton))
  | context (shipment : ContextShipment)
deriving Repr

/-- The size and the schema of a partition. -/
structure PartitionMeta where
  rows : Nat
  schema : Schema
deriving DecidableEq, Repr

/-- The size and the schema of a batch. -/
def PartitionMeta.ofBatch (batch : Batch) : PartitionMeta where
  rows := batch.rows
  schema := batch.schema

/-- A message between the coordinator and a worker. -/
inductive Message where
  | command (command : Command)
  | environment (environment : Named String)
  /-- The skeletons of the positional and of the named arguments. -/
  | arguments (positional : List Skeleton) (keyword : Named Skeleton)
  | data (batch : Batch)
  | resultId (id : ResultId)
  | computation (computation : Computation) (call : CallId)
  /-- The worker has run the computation. -/
  | completed
  | status (failure : Option RankFailure)
  /-- The coordinator has heard all ranks: hand over the output, or drop it. -/
  | proceed (goOn : Bool)
  | outputShape (shape : Distribution)
  | value (value : Value)
  | partitionMeta (partition : Option PartitionMeta)
  | partition (batch : Option Batch)
deriving Repr

namespace Message

/-- The name of the kind of message. -/
def name : Message → String
  | command _ => "Command"
  | environment _ => "Env"
  | arguments _ _ => "Args"
  | data _ => "Data"
  | resultId _ => "ResultId"
  | computation _ _ => "Computation"
  | completed => "Completed"
  | status _ => "Status"
  | proceed _ => "Proceed"
  | outputShape _ => "OutputTag"
  | value _ => "Value"
  | partitionMeta _ => "PartitionMeta"
  | partition _ => "Partition"

/-- Another kind of message was expected. -/
def unexpected (expected : String) (got : Message) : Failure where
  kind := .protocol
  message := "Expected " ++ expected ++ " frame, got " ++ got.name

/-- What a message of the expected kind says. -/
def expect {α : Type} (expected : String) (select : Message → Option α) (got : Message) :
    Except Failure α :=
  match select got with
  | some content => .ok content
  | none => .error (unexpected expected got)

/-- The command that a message gives. -/
def expectCommand : Message → Except Failure Command :=
  expect "Command" fun | command found => some found | _ => none

/-- The variables that a message hands on. -/
def expectEnvironment : Message → Except Failure (Named String) :=
  expect "Env" fun | environment found => some found | _ => none

/-- The skeletons that a message brings. -/
def expectArguments : Message → Except Failure (List Skeleton × Named Skeleton) :=
  expect "Args" fun | arguments positional keyword => some (positional, keyword) | _ => none

/-- The table that a message brings. -/
def expectData : Message → Except Failure Batch :=
  expect "Data" fun | data found => some found | _ => none

/-- The name of a result that a message gives. -/
def expectResultId : Message → Except Failure ResultId :=
  expect "ResultId" fun | resultId found => some found | _ => none

/-- The computation that a message asks for, and the call that it belongs to. -/
def expectComputation : Message → Except Failure (Computation × CallId) :=
  expect "Computation" fun | computation found call => some (found, call) | _ => none

/-- The word that a computation is done. -/
def expectCompleted : Message → Except Failure Unit :=
  expect "Completed" fun | completed => some () | _ => none

/-- How it went on a rank. -/
def expectStatus : Message → Except Failure (Option RankFailure) :=
  expect "Status" fun | status found => some found | _ => none

/-- Whether to go on. -/
def expectProceed : Message → Except Failure Bool :=
  expect "Proceed" fun | proceed goOn => some goOn | _ => none

/-- The shape of an output. -/
def expectOutputShape : Message → Except Failure Distribution :=
  expect "OutputTag" fun | outputShape found => some found | _ => none

/-- The value that a message brings. -/
def expectValue : Message → Except Failure Value :=
  expect "Value" fun | value found => some found | _ => none

/-- The size of a partition, if there is one. -/
def expectPartitionMeta : Message → Except Failure (Option PartitionMeta) :=
  expect "PartitionMeta" fun | partitionMeta found => some found | _ => none

/-- A partition, if there is one. -/
def expectPartition : Message → Except Failure (Option Batch) :=
  expect "Partition" fun | partition found => some found | _ => none

end Message

end Rankwise

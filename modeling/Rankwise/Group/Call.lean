import Rankwise.Group.Connection
import Rankwise.Group.Environment

/-!
# Calls

A call is prepared completely before anything is sent: a bad argument leaves the workers idle. Then
every rank gets the command, the variables, the skeletons of the arguments, the data and the
computation, and reports how it went. Only if no rank has failed is the output handed over: its
shape and its values by rank zero, its partitions by all ranks. At last the ranks say what has
become of the results that were named in the arguments.

Where a call fails after some partitions have been reported, the results they belong to are given
back with the failure, since the workers store them by then.
-/

namespace Rankwise

/-- What a group hands back. -/
inductive Reply where
  | value (value : Value)
  /-- A table that lies in partitions on the workers. -/
  | partitioned (partitioned : Partitioned)
  | tuple (items : List Reply)
  | map (entries : List (String × Reply))
deriving Repr

namespace Reply

mutual

/-- The results on the workers that a reply speaks of, in order. -/
def results : Reply → List Partitioned
  | value _ => []
  | partitioned found => [found]
  | tuple items => resultsOf items
  | map entries => resultsOfEntries entries

/-- The results that several replies speak of. -/
def resultsOf : List Reply → List Partitioned
  | [] => []
  | item :: rest => results item ++ resultsOf rest

/-- The results that several entries speak of. -/
def resultsOfEntries : List (String × Reply) → List Partitioned
  | [] => []
  | (_, entry) :: rest => results entry ++ resultsOfEntries rest

end

end Reply

/-- A failure during a call, with the results that the workers store because of the call. -/
structure Abandoned where
  failure : Failure
  orphans : List Partitioned := []
deriving Repr

/-- Talk during which results come to be stored on the workers. -/
abbrev Collecting (α : Type) := ExceptT Abandoned (StateT Group Dialogue) α

instance :
    MonadLift (ExceptT Failure (StateT Group Dialogue))
      (ExceptT Abandoned (StateT Group Dialogue)) where
  monadLift talk := ExceptT.mk do
    return (← talk.run).mapError fun failure => { failure }

/-- A call that is ready to be sent. -/
structure PreparedCall where
  /-- The computation, which knows of all parameters whose tables are sent. -/
  computation : Computation
  positional : List (Argument × Shipment)
  keyword : List (String × Argument × Shipment)
  /-- The message with the skeletons of all arguments. -/
  skeletons : Message

namespace PreparedCall

/-- How the positional arguments are shipped. -/
def shipPositional (isLive : Handle → Bool) (computation : Computation)
    (arguments : List Argument) : Shipment.Looking (List (Argument × Shipment)) :=
  arguments.zipIdx.mapM fun (argument, index) => do
    let name := computation.parameterName index
    return (argument,
      ← Shipment.ofArgument isLive name (computation.isReplicated name) argument)

/-- How the named arguments are shipped. -/
def shipKeyword (isLive : Handle → Bool) (computation : Computation)
    (arguments : Named Argument) :
    Shipment.Looking (List (String × Argument × Shipment)) :=
  arguments.mapM fun (name, argument) => do
    return (name, argument,
      ← Shipment.ofArgument isLive name (computation.isReplicated name) argument)

/-- Prepares a call: looks at all arguments and puts the placeholders in. -/
def prepare (isLive : Handle → Bool) (computation : Computation) (arguments : CallArguments) :
    Except Failure PreparedCall := do
  let (positional, noted) ← (shipPositional isLive computation arguments.positional).run []
  let (keyword, noted) ← (shipKeyword isLive computation arguments.keyword).run noted
  let positionalSkeletons ← positional.mapM fun (argument, shipment) =>
    Shipment.skeleton argument shipment
  let keywordSkeletons ← keyword.mapM fun (name, argument, shipment) => do
    return (name, ← Shipment.skeleton argument shipment)
  return {
    computation := computation.withDistributed noted
    positional, keyword
    skeletons := .arguments positionalSkeletons keywordSkeletons }

/-- How many frames of the arguments are only named. -/
def lazyFrames (prepared : PreparedCall) : Nat :=
  let named (shipped : List (Argument × Shipment)) : Nat :=
    Shipment.lazyFramesOf (shipped.map Prod.fst) (shipped.map Prod.snd)
  named prepared.positional + named (prepared.keyword.map Prod.snd)

/-- A named argument after the call. -/
def updatedEntry (entry : String × Argument × Shipment) :
    StateM Shipment.Updates (String × Argument) := do
  return (entry.1, ← Shipment.updated entry.2.1 entry.2.2)

/-- The arguments after the call, given what the ranks said about the named results. -/
def updated (prepared : PreparedCall) (updates : Shipment.Updates) : CallArguments :=
  let (positional, rest) := (prepared.positional.mapM fun (argument, shipment) =>
    Shipment.updated argument shipment).run updates
  let (keyword, _) := (prepared.keyword.mapM updatedEntry).run rest
  { positional, keyword }

end PreparedCall

/-- How a call ended: the arguments as they are now, and the reply. -/
structure CallEnd where
  arguments : CallArguments
  outcome : Except Abandoned Reply

namespace Group

/-- The group can no longer be used. -/
def unusable (generation : Nat) : Failure where
  kind := .protocol
  message := "Process group has been destroyed"
  fields := [("generation", toString generation)]

/-- Fails if the group can no longer be used. -/
def ensureUsable : Talk Unit := do
  let group ← get
  if group.isUnusable then throw (unusable group.generation)

/-- Awaits one message of the expected kind from every rank. -/
def gatherOf {α : Type} (select : Message → Except Failure α) : Talk (List α) := do
  let messages ← gather
  ExceptT.mk (pure (messages.mapM select))

/-- Awaits a message of the expected kind from a rank. -/
def receiveOf {α : Type} (select : Message → Except Failure α) (rank : Nat) : Talk α := do
  let message ← receive rank
  ExceptT.mk (pure (select message))

/-- Awaits the word of every rank that it is done. -/
def awaitCompletion : Talk Unit := do
  (List.range (← get).size).forM (receiveOf Message.expectCompleted)

/-- Makes a call up to the point at which the output is handed over. If some rank failed, the ranks
are told to drop their outputs and the failure is given. -/
def request (prepared : PreparedCall) (environment : Named String) (call : CallId) : Talk Unit := do
  broadcast (.command .execute)
  broadcast (.environment environment)
  broadcast prepared.skeletons
  prepared.positional.forM fun (argument, shipment) => sendData argument shipment
  prepared.keyword.forM fun (_, argument, shipment) => sendData argument shipment
  broadcast (.computation prepared.computation call)
  awaitCompletion
  match RankFailure.combine (← gatherOf Message.expectStatus) with
  | .error failure =>
    broadcast (.proceed false)
    throw failure
  | .ok () => broadcast (.proceed true)

/-- Some rank has no partition of a distributed output. -/
def missingPartition (rank : Nat) : Failure where
  kind := .protocol
  message := "Missing partition for distributed output"
  fields := [("rank", toString rank)]

/-- The partitions of all ranks, if none is missing. -/
def allPartitions (parts : List (Option PartitionMeta)) : Except Failure (List PartitionMeta) :=
  parts.zipIdx.mapM fun (part, rank) =>
    match part with
    | some found => .ok found
    | none => .error (missingPartition rank)

/-- Awaits the partitions of a distributed output. -/
def receivePartitioned (id : ResultId) : Talk Partitioned := do
  let parts ← gatherOf Message.expectPartitionMeta
  ExceptT.mk (pure ((allPartitions parts).bind (Partitioned.ofPartitions id)))

/-- Adds results to those that are given back if this fails. -/
def holding {α : Type} (results : List Partitioned) (collecting : Collecting α) : Collecting α :=
  ExceptT.mk do
    return (← collecting.run).mapError fun abandoned =>
      { abandoned with orphans := abandoned.orphans ++ results }

mutual

/-- Receives an output of a known shape. Its distributed parts are numbered from `leaf` on; the next
number is given with it. -/
def receiveReply (call : CallId) (leaf : Nat) : Distribution → Collecting (Reply × Nat)
  | .replicated => do return (.value (← (receiveOf Message.expectValue 0 : Talk Value)), leaf)
  | .distributed => do
    let found ← (receivePartitioned (.ofOutput call leaf) : Talk Partitioned)
    return (.partitioned found, leaf + 1)
  | .tuple shapes => do
    let (items, leaf) ← receiveReplies call leaf [] shapes
    return (.tuple items, leaf)
  | .map shapes => do
    let (entries, leaf) ← receiveEntries call leaf [] shapes
    return (.map entries, leaf)

/-- Receives the items of a tuple behind those received already. -/
def receiveReplies (call : CallId) (leaf : Nat) (received : List Reply) :
    List Distribution → Collecting (List Reply × Nat)
  | [] => return (received, leaf)
  | shape :: rest => do
    let (item, leaf) ← holding (Reply.resultsOf received) (receiveReply call leaf shape)
    receiveReplies call leaf (received ++ [item]) rest

/-- Receives the entries of a map behind those received already. -/
def receiveEntries (call : CallId) (leaf : Nat) (received : List (String × Reply)) :
    List (String × Distribution) → Collecting (List (String × Reply) × Nat)
  | [] => return (received, leaf)
  | (name, shape) :: rest => do
    let (entry, leaf) ← holding (Reply.resultsOfEntries received) (receiveReply call leaf shape)
    receiveEntries call leaf (received ++ [(name, entry)]) rest

end

/-- Receives the shape of the output and the output. -/
def collectReply (call : CallId) : Collecting Reply := do
  let shape ← (receiveOf Message.expectOutputShape 0 : Talk Distribution)
  return (← receiveReply call 0 shape).1

/-- Hears from all ranks what has become of the named results, one after the other. -/
def hearUpdates : Nat → StateT Group Dialogue (Shipment.Updates × Option Failure)
  | 0 => return ([], none)
  | count + 1 => do
    match ← (gatherOf Message.expectPartitionMeta).run with
    | .error failure => return ([], some failure)
    | .ok parts =>
      let (rest, failure) ← hearUpdates count
      return (parts.mapM id :: rest, failure)

/-- Makes a call that is prepared. -/
def conduct (prepared : PreparedCall) (environment : Named String) (call : CallId)
    (arguments : CallArguments) : StateT Group Dialogue CallEnd := do
  match ← (do
    (request prepared environment call : Talk Unit)
    collectReply call : Collecting Reply).run with
  | .error abandoned => return { arguments, outcome := .error abandoned }
  | .ok reply =>
    let (updates, failure) ← hearUpdates prepared.lazyFrames
    return {
      arguments := prepared.updated updates
      outcome := match failure with
        | none => .ok reply
        | some failure => .error { failure, orphans := reply.results } }

/-- Makes a call. -/
def submit (isLive : Handle → Bool) (surroundings : List (String × String)) (call : CallId)
    (computation : Computation) (arguments : CallArguments) : StateT Group Dialogue CallEnd := do
  match ← ensureUsable.run with
  | .error failure => return { arguments, outcome := .error { failure } }
  | .ok () =>
    match PreparedCall.prepare isLive computation arguments with
    | .error failure => return { arguments, outcome := .error { failure } }
    | .ok prepared =>
      let environment := Environment.forwarded surroundings computation.options.propagateEnvironment
      conduct prepared environment call arguments

/-- Some rank does not store a result. -/
def missingResult (id : ResultId) (rank : Nat) : Failure where
  kind := .protocol
  message := "Result not found on worker"
  fields := [("result_id", id.text), ("rank", toString rank)]

/-- The partition that a rank has sent. -/
def partitionOf (id : ResultId) (message : Message) (rank : Nat) : Except Failure Batch := do
  match ← message.expectPartition with
  | some partition => return partition
  | none => throw (missingResult id rank)

/-- The partitions of all ranks as one table, with the schema of the first one. -/
def joinPartitions (parts : List Batch) : Except Failure Batch :=
  match parts with
  | [] => .error { kind := .protocol, message := "Process group has no workers" }
  | first :: _ => Batch.concat first.schema parts

/-- Fetches all partitions of a result. -/
def gatherResult (id : ResultId) : Talk Batch := do
  ensureUsable
  broadcast (.command .gather)
  broadcast (.resultId id)
  let messages ← gather
  ExceptT.mk <| pure do
    joinPartitions (← messages.zipIdx.mapM fun (message, rank) => partitionOf id message rank)

/-- Makes the workers forget a result. -/
def deleteResult (id : ResultId) : Talk Unit := do
  ensureUsable
  broadcast (.command .deleteResult)
  broadcast (.resultId id)

/-- The group was ended before. -/
def alreadyEnded (generation : Nat) : Failure where
  kind := .protocol
  message := "Process group already destroyed"
  fields := [("generation", toString generation)]

/-- Ends the group: tells the workers to leave, unless the connection has failed, and waits for
them. The connection is closed also if not all workers could be told. -/
def finish : Talk Unit := do
  let group ← get
  if group.ended then throw (alreadyEnded group.generation)
  set { group with ended := true }
  ExceptT.mk do
    let told ← if group.broken then pure (.ok ()) else (broadcast (.command .exit)).run
    let closed ← shutdown.run
    return told.bind fun _ => closed

end Group

end Rankwise

import Rankwise.Group.Call
import Rankwise.Group.LazyTable
import Rankwise.Group.Registry

/-!
# Spawners

A spawner starts a group when one is needed, at its first use and again after a group has ended, and
keeps it for later calls. Every group gets a larger generation than all groups before it, also than
those that could not be started. A group whose connection has failed is retired at once.

Results on the workers are freed when the last share of their handle is given up. The workers are
told at once if the group is idle; results that are given up while a call is under way are freed
when the group is used next. Nothing is freed in a group of another generation.

The state of all spawners, handles and tables that wait to be put onto workers is the `World` of the
coordinator.
-/

namespace Rankwise

open Environment (GroupOptions)

/-- The group of a spawner. -/
inductive GroupState where
  /-- No group has been started yet. -/
  | uninitialized
  | live (group : Group)
  /-- The last group has ended. -/
  | destroyed
deriving DecidableEq, Repr

/-- A spawner. -/
structure Spawner where
  options : GroupOptions
  state : GroupState := .uninitialized
  /-- The generation of the live group, if there is one. -/
  liveGeneration : Option Nat := none
  /-- The generation of the last group that was to be started. Generations are counted without
  bound; the program starts again at zero behind the largest machine word, after as many launches.
  -/
  lastGeneration : Nat := 0
  /-- Results that are to be freed, with the generations of their groups. -/
  pending : List (Nat × ResultId) := []
  /-- How many share the spawner. It is gone when nobody does. -/
  owners : Nat := 1
deriving DecidableEq, Repr

namespace Spawner

/-- Whether anybody shares the spawner. -/
def exists? (spawner : Spawner) : Bool := decide (0 < spawner.owners)

/-- The number of workers in the live group, if there is one. -/
def workers? (spawner : Spawner) : Option Nat :=
  match spawner.state with
  | .live group => some group.size
  | _ => none

end Spawner

/-- A table that the coordinator keeps until the workers need it. -/
structure PendingTable where
  frame : Frame
  /-- The copy that was put onto the workers. -/
  scattered : Option Frame := none
  /-- The name under which the table was put onto the workers last. -/
  id : Option ResultId := none
deriving DecidableEq, Repr

/-- All that the coordinator keeps track of. -/
structure World where
  /-- The variables of the surroundings. -/
  environment : List (String × String) := []
  /-- The number of cores. -/
  cores : Nat := 1
  spawners : List Spawner := []
  /-- How many shares of each handle there are, by the keys of the handles. -/
  shares : List Nat := []
  tables : List PendingTable := []
  /-- The number of calls so far. -/
  calls : Nat := 0
deriving DecidableEq, Repr

/-- Acting as the coordinator. -/
abbrev Acting (α : Type) := StateT World Dialogue α

/-- Acting as the coordinator, with a result or a failure. -/
abbrev Coordinating (α : Type) := ExceptT Stop (StateT World Dialogue) α

/-- Gives the failure of a result, if it has one. -/
def Coordinating.ofExcept {α : Type} (result : Except Failure α) : Coordinating α :=
  ExceptT.mk (pure (result.mapError Stop.failed))

/-- Fails. -/
def Coordinating.fail {α : Type} (failure : Failure) : Coordinating α :=
  Coordinating.ofExcept (.error failure)

namespace World

/-- The spawner of a name, if anybody shares it. -/
def spawner? (world : World) (id : SpawnerId) : Option Spawner :=
  world.spawners[id.index]?.filter Spawner.exists?

/-- Changes a spawner. -/
def change (world : World) (id : SpawnerId) (update : Spawner → Spawner) : World :=
  { world with spawners := world.spawners.modify id.index update }

/-- The live group of a spawner. -/
def group? (world : World) (id : SpawnerId) : Option Group :=
  match world.spawner? id with
  | some { state := .live group, .. } => some group
  | _ => none

/-- Whether a handle belongs to a live group. -/
def isLive (world : World) (handle : Handle) : Bool :=
  (world.spawner? handle.owner).any fun spawner =>
    spawner.liveGeneration = some handle.generation

/-- The value of a variable of the surroundings. -/
def lookup (world : World) (name : String) : Option String :=
  (Named.ofList world.environment).get? name

/-- The names under which pending tables were put onto the workers. -/
def names (world : World) : LazyNames := fun key => world.tables[key.index]?.bind PendingTable.id

end World

/-- Starts the workers of a group for a spawner. -/
def Group.start (spawner : SpawnerId) (options : GroupOptions) (generation : Nat) :
    Coordinating Group := do
  let world ← get
  let workers ← Coordinating.ofExcept
    (Environment.workerCount options.workers (m := Id) world.lookup world.cores).run
  let request : LaunchRequest := {
    workers
    environment := Environment.forwarded world.environment options.propagate
    verbosity := options.verbosity }
  let answer ← (StateT.lift (.launch spawner request .done) : Acting (Except Failure Link))
  let link ← Coordinating.ofExcept answer
  return { link, size := workers, generation }

namespace SpawnerId

/-- Adds a spawner. -/
def create (options : GroupOptions) : Acting SpawnerId := do
  let world ← get
  set { world with spawners := world.spawners ++ [({ options } : Spawner)] }
  return ⟨world.spawners.length⟩

/-- Changes the spawner. -/
def change (id : SpawnerId) (update : Spawner → Spawner) : Acting Unit :=
  modify fun world => world.change id update

/-- Talks with the live group. There is no answer if there is no live group. -/
def talk {α : Type} (id : SpawnerId) (talk : StateT Group Dialogue α) : Acting (Option α) := do
  match (← get).group? id with
  | none => return none
  | some group =>
    let (answer, group) ← talk.run group
    id.change fun spawner => { spawner with state := .live group }
    return some answer

/-- Starts a group. Its generation counts even if it cannot be started. -/
def launch (id : SpawnerId) (spawner : Spawner) : Coordinating Unit := do
  let generation := spawner.lastGeneration + 1
  id.change fun spawner => { spawner with lastGeneration := generation }
  let group ← Group.start id spawner.options generation
  id.change fun spawner => { spawner with
    state := .live group
    liveGeneration := some generation }

/-- Makes the workers forget the results that are to be freed. Results of other generations are
passed over, and so are failures. -/
def flush (id : SpawnerId) : Acting Unit := do
  match (← get).spawner? id with
  | none => return
  | some spawner =>
    id.change fun spawner => { spawner with pending := [] }
    let _ ← id.talk (spawner.pending.forM fun (generation, result) => do
      if generation = (← get).generation then
        let _ ← (Group.deleteResult result).run)

/-- Retires the live group if it can no longer be used. -/
def retireIfUnusable (id : SpawnerId) : Acting Unit := do
  match (← get).group? id with
  | none => return
  | some group =>
    if group.isUnusable then
      let _ ← id.talk Group.finish.run
      id.change fun spawner => { spawner with state := .destroyed, liveGeneration := none }

/-- The spawner is gone. -/
def gone : Failure where
  kind := .protocol
  message := "Spawner owning this result has been dropped"

/-- The group is not there although it was started. -/
def notStarted : Failure where
  kind := .internal
  message := "Process group not live after spawn"

/-- Makes sure that there is a live group. -/
def ensureGroup (id : SpawnerId) : Coordinating Unit := do
  match (← get).spawner? id with
  | none => Coordinating.fail gone
  | some spawner =>
    match spawner.state with
    | .live _ => return
    | _ => id.launch spawner

/-- Notes that a result is to be freed, if its group is live. -/
def notePending (id : SpawnerId) (generation : Nat) (result : ResultId) : Acting Unit :=
  id.change fun spawner =>
    if spawner.liveGeneration = some generation then
      { spawner with pending := spawner.pending ++ [(generation, result)] }
    else spawner

/-- Frees a result, at once if its group is live. -/
def free (id : SpawnerId) (generation : Nat) (result : ResultId) : Acting Unit := do
  match (← get).spawner? id with
  | none => return
  | some spawner =>
    if spawner.liveGeneration = some generation then
      id.notePending generation result
      id.flush

end SpawnerId

/-! Sharing and giving up handles. -/

namespace Handle

/-- Makes the handle of a new result. -/
def create (owner : SpawnerId) (generation : Nat) (id : ResultId) : Acting Handle := do
  let world ← get
  set { world with shares := world.shares ++ [1] }
  return { key := world.shares.length, id, generation, owner }

/-- Takes a further share. -/
def share (handle : Handle) : Acting Unit :=
  modify fun world => { world with shares := world.shares.modify handle.key (· + 1) }

/-- Gives up a share. With the last one the result is freed. -/
def release (handle : Handle) : Acting Unit := do
  match (← get).shares[handle.key]? with
  | some (others + 1) =>
    modify fun world => { world with shares := world.shares.set handle.key others }
    if others = 0 then handle.owner.free handle.generation handle.id
  | _ => return

/-- The group that stored a result has ended. -/
def ofEndedGroup (generation : Nat) : Failure where
  kind := .protocol
  message := "Result belongs to a process group that has been reset"
  fields := [("generation", toString generation)]

/-- Fetches the table that a handle stands for. -/
def gather (handle : Handle) : Coordinating Batch := do
  if ((← get).spawner? handle.owner).isNone then Coordinating.fail SpawnerId.gone
  (handle.owner.flush : Acting Unit)
  let failure := ofEndedGroup handle.generation
  match (← get).group? handle.owner with
  | none => Coordinating.fail failure
  | some group =>
    if group.generation ≠ handle.generation then Coordinating.fail failure
    let answer ← (handle.owner.talk (Group.gatherResult handle.id).run :
      Acting (Option (Except Failure Batch)))
    (handle.owner.retireIfUnusable : Acting Unit)
    Coordinating.ofExcept (answer.getD (.error failure))

end Handle

namespace Frame

/-- Takes a further share of the frame. -/
def share (frame : Frame) : Acting Frame := do
  if let some handle := frame.handle? then handle.share
  return frame

/-- Gives up the frame. -/
def release (frame : Frame) : Acting Unit :=
  frame.handle?.forM Handle.release

/-- The whole table. The frame stays as it is. -/
def table : Frame → Coordinating Batch
  | collected table => return table
  | distributed _ handle => handle.gather

/-- Fetches the table and holds it from then on. The result on the workers is given up. -/
def collect (frame : Frame) : Coordinating Frame := do
  let table ← frame.table
  (frame.release : Acting Unit)
  return collected table

end Frame

/-- What a call gives. -/
inductive Answer where
  | value (value : Value)
  | frame (frame : Frame)
  | tuple (items : List Answer)
  | map (entries : List (String × Answer))
deriving Repr

namespace Answer

/-- The name of the kind of answer. -/
def kindName : Answer → String
  | value _ => "Value"
  | frame _ => "Frame"
  | tuple _ => "Tuple"
  | map _ => "Map"

mutual

/-- The frames of an answer, in order. -/
def frames : Answer → List Frame
  | value _ => []
  | frame found => [found]
  | tuple items => framesOf items
  | map entries => framesOfEntries entries

/-- The frames of several answers. -/
def framesOf : List Answer → List Frame
  | [] => []
  | item :: rest => frames item ++ framesOf rest

/-- The frames of several entries. -/
def framesOfEntries : List (String × Answer) → List Frame
  | [] => []
  | (_, entry) :: rest => frames entry ++ framesOfEntries rest

end

mutual

/-- Makes handles for the results of a reply. -/
def ofReply (owner : SpawnerId) (generation : Nat) : Reply → Acting Answer
  | .value found => return value found
  | .partitioned found => do
    return frame (.distributed found (← Handle.create owner generation found.id))
  | .tuple items => do return tuple (← ofReplies owner generation items)
  | .map entries => do return map (← ofEntries owner generation entries)

/-- Makes handles for the results of several replies. -/
def ofReplies (owner : SpawnerId) (generation : Nat) : List Reply → Acting (List Answer)
  | [] => return []
  | item :: rest => do
    return (← ofReply owner generation item) :: (← ofReplies owner generation rest)

/-- Makes handles for the results of several entries. -/
def ofEntries (owner : SpawnerId) (generation : Nat) :
    List (String × Reply) → Acting (List (String × Answer))
  | [] => return []
  | (name, entry) :: rest => do
    return (name, ← ofReply owner generation entry) :: (← ofEntries owner generation rest)

end

/-- Gives up all frames of an answer. -/
def release (answer : Answer) : Acting Unit := answer.frames.forM Frame.release

/-- An answer of another kind was expected. The answer is given up. -/
def unexpected {α : Type} (answer : Answer) (expected : String) : Coordinating α := do
  (answer.release : Acting Unit)
  Coordinating.fail {
    message := "Expected a " ++ expected ++ " result", fields := [("got", answer.kindName)] }

/-- The value that the answer is. -/
def toValue : Answer → Coordinating Value
  | value found => return found
  | other => other.unexpected "replicated value"

/-- The frame that the answer is. -/
def toFrame : Answer → Coordinating Frame
  | frame found => return found
  | other => other.unexpected "distributed frame"

/-- The items of the tuple that the answer is. -/
def toTuple : Answer → Coordinating (List Answer)
  | tuple items => return items
  | other => other.unexpected "tuple"

end Answer

namespace SpawnerId

/-- Makes a call on the live group and gives the answer with the arguments as they are then. There
is a group after a failed call too, unless its connection failed; what the workers store because of
the failed call is freed at the next use of the group. -/
def submit (id : SpawnerId) (computation : Computation) (arguments : CallArguments) :
    Coordinating (CallArguments × Except Failure Answer) := do
  id.ensureGroup
  (id.flush : Acting Unit)
  let world ← get
  set { world with calls := world.calls + 1 }
  let some group := world.group? id | Coordinating.fail notStarted
  let called ← (id.talk (Group.submit world.isLive world.environment (.ofCounter world.calls)
    computation arguments) : Acting (Option CallEnd))
  let some called := called | Coordinating.fail notStarted
  let answer ← (match called.outcome with
    | .ok reply => do return .ok (← Answer.ofReply id group.generation reply)
    | .error abandoned => do
      abandoned.orphans.forM fun orphan => id.notePending group.generation orphan.id
      return .error abandoned.failure : Acting (Except Failure Answer))
  (id.retireIfUnusable : Acting Unit)
  return (called.arguments, answer)

/-- The computation that keeps a table on the workers. -/
def scatterComputation : Computation := { name := Body.scatterName, parameters := ["data"] }

/-- Puts a table onto the workers, in even blocks. -/
def scatter (id : SpawnerId) (table : Batch) : Coordinating Frame := do
  let (_, answer) ← id.submit scatterComputation { positional := [.value (.table table)] }
  (← Coordinating.ofExcept answer).toFrame

/-- Ends the live group, if there is one. -/
def reset (id : SpawnerId) : Coordinating Unit := do
  id.change fun spawner => { spawner with pending := [] }
  let answer ← (id.talk Group.finish.run : Acting (Option (Except Failure Unit)))
  match answer with
  | none => return
  | some answer =>
    id.change fun spawner => { spawner with state := .destroyed, liveGeneration := none }
    Coordinating.ofExcept answer

/-- Takes a further share of the spawner. -/
def share (id : SpawnerId) : Acting Unit :=
  id.change fun spawner => { spawner with owners := spawner.owners + 1 }

/-- Gives up a share of the spawner. With the last one its group is ended. -/
def release (id : SpawnerId) : Acting Unit := do
  match (← get).spawner? id with
  | none => return
  | some spawner =>
    if spawner.owners = 1 then
      let _ ← id.talk Group.finish.run
    id.change fun spawner => { spawner with owners := spawner.owners - 1 }

end SpawnerId

/-! Tables that are shipped by name. -/

namespace LazyTable

/-- Keeps a frame until the workers need its table. -/
def create (frame : Frame) : Acting LazyTable := do
  let world ← get
  set { world with tables := world.tables ++ [({ frame } : PendingTable)] }
  return pending ⟨world.tables.length⟩

/-- The table that the coordinator keeps, if it keeps it. -/
def pending? (table : LazyTable) (world : World) : Option PendingTable :=
  match table with
  | stored _ => none
  | pending key => world.tables[key.index]?

/-- Only the coordinator can put a table onto the workers. -/
def onWorker : Failure where
  kind := .internal
  message := "Cannot initialize a lazy argument on a worker"

/-- A table that was put onto the workers has no name there. -/
def withoutName : Failure where
  kind := .internal
  message := "Scattered frame has no result id"

/-- The name of a frame that a live group stores. -/
def residentId? (world : World) (frame : Frame) : Option ResultId :=
  match frame.residency world.isLive with
  | .resident id => some id
  | _ => none

/-- Puts the table of a frame onto the workers of a spawner and notes where it is. -/
def scatterPending (spawner : SpawnerId) (key : LazyKey) (kept : PendingTable) :
    Coordinating ResultId := do
  let table ← kept.frame.table
  let scattered ← spawner.scatter table
  let some id := scattered.resultId? | Coordinating.fail withoutName
  modify fun world => { world with
    tables := world.tables.modify key.index fun kept => { kept with scattered := some scattered } }
  (kept.scattered.forM Frame.release : Acting Unit)
  return id

/-- Makes sure that workers store the table, and gives its name there. The result that the frame
stands for is used if some group stores it, else the copy that was put onto workers before; only if
both are no more the table is put onto the workers of the spawner. -/
def settle (spawner : SpawnerId) : LazyTable → Coordinating ResultId
  | stored _ => Coordinating.fail onWorker
  | pending key => do
    let world ← get
    let some kept := world.tables[key.index]? | Coordinating.fail onWorker
    let id ← match residentId? world kept.frame, kept.scattered.bind (residentId? world) with
      | some id, _ => pure id
      | none, some id => pure id
      | none, none => scatterPending spawner key kept
    modify fun world => { world with
      tables := world.tables.modify key.index fun kept => { kept with id := some id } }
    return id

/-- Only the workers have the table. -/
def onWorkersOnly (id : ResultId) : Failure where
  kind := .internal
  message := "Lazy argument only available as a result on the workers"
  fields := [("result_id", id.text)]

/-- The whole table, where the coordinator can get it. -/
def localTable : LazyTable → Coordinating Batch
  | stored id => Coordinating.fail (onWorkersOnly id)
  | pending key => do
    let some kept := (← get).tables[key.index]? | Coordinating.fail onWorker
    kept.frame.table

/-- Gives up a table that the coordinator keeps. -/
def release (table : LazyTable) : Acting Unit := do
  match table.pending? (← get) with
  | none => return
  | some kept =>
    kept.frame.release
    kept.scattered.forM Frame.release

end LazyTable

end Rankwise

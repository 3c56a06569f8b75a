import Rankwise.Group.Registry
import Rankwise.Group.Message

/-!
# Workers

A worker waits for a command, carries it out and waits for the next one. In a call it takes the
arguments apart from their data, runs the computation, says that it is done and how it went, and
hands over its output only if it is told to go on. A computation that fails, or an argument that is
missing on this rank, is reported and does not end the worker; a failure of the connection does.

What a worker sends and receives while it carries out a command is a `Session`, a tree like the
dialogue of the coordinator. One command is one session, so no session is infinite.
-/

namespace Rankwise

/-- What a worker sends and receives, and how it goes on. -/
inductive Session (α : Type) where
  | done (value : α)
  | send (message : Message) (next : Except Failure Unit → Session α)
  | receive (next : Except Failure Message → Session α)

namespace Session

variable {α β : Type}

/-- Goes on with a further session. -/
def bind : Session α → (α → Session β) → Session β
  | done value, continuation => continuation value
  | send message next, continuation => send message fun answer => (next answer).bind continuation
  | receive next, continuation => receive fun answer => (next answer).bind continuation

instance : Monad Session where
  pure := done
  bind := bind

/-- To go on by giving the result back is to do nothing more. -/
theorem bind_done (session : Session α) : session.bind done = session := by
  induction session with
  | done value => rfl
  | send message next inductionHypothesis => exact congrArg _ (funext inductionHypothesis)
  | receive next inductionHypothesis => exact congrArg _ (funext inductionHypothesis)

/-- It makes no difference how sessions that follow each other are grouped. -/
theorem bind_assoc {γ : Type} (session : Session α) (first : α → Session β)
    (second : β → Session γ) :
    (session.bind first).bind second = session.bind fun value => (first value).bind second := by
  induction session with
  | done value => rfl
  | send message next inductionHypothesis => exact congrArg _ (funext inductionHypothesis)
  | receive next inductionHypothesis => exact congrArg _ (funext inductionHypothesis)

instance : LawfulMonad Session :=
  LawfulMonad.mk' Session (fun session => bind_done session) (fun _ _ => rfl)
    fun session first second => bind_assoc session first second

end Session

/-- How the work of a worker ends. -/
inductive WorkerEnd where
  /-- It was told to leave. -/
  | exited
  /-- Its connection failed. -/
  | failed (failure : Failure)
  /-- A computation ended it without a word. -/
  | vanished
  /-- A computation never comes to its end. -/
  | hung
deriving DecidableEq, Repr

/-- The work of a worker on one command. -/
abbrev Serving (α : Type) := ExceptT WorkerEnd (StateT ResultStore Session) α

/-- A worker of a group. -/
structure Worker where
  rank : Nat
  /-- The number of workers in the group. -/
  size : Nat
  registry : Registry

namespace Worker

/-- Sends a message to the coordinator. -/
def send (message : Message) : Serving Unit :=
  ExceptT.mk fun store => .send message fun answer =>
    .done (answer.mapError WorkerEnd.failed, store)

/-- Takes what was received apart. -/
def accept {α : Type} (select : Message → Except Failure α)
    (received : Except Failure Message) : Serving α :=
  ExceptT.mk (pure ((received.bind select).mapError WorkerEnd.failed))

/-- Awaits a message from the coordinator. -/
def receive {α : Type} (select : Message → Except Failure α) : Serving α := do
  let received ← (ExceptT.mk fun store => .receive fun answer => .done (.ok answer, store) :
    Serving (Except Failure Message))
  accept select received

/-- A result is named that the worker does not store. -/
def missingResult (id : ResultId) (rank : Nat) : Failure where
  kind := .protocol
  message := "Result not found on worker"
  fields := [("result_id", id.text), ("rank", toString rank)]

/-- What is found out while the arguments are received. -/
structure Intake where
  /-- The results that were named, in order. -/
  named : List ResultId := []
  /-- The first named result that was missing. It is reported only when all data has arrived. -/
  missing : Option Failure := none

/-- Receiving the data of arguments. -/
abbrev Receiving (α : Type) := StateT Intake (ExceptT WorkerEnd (StateT ResultStore Session)) α

/-- Receives the table for a placeholder. There is none if a named result is missing. -/
def receiveTable (worker : Worker) (isTracked : Bool) (transfer : Transfer) :
    Receiving (Option Batch) := do
  match transfer with
  | .broadcast | .scatter => return some (← receive Message.expectData)
  | .lazy =>
    let id ← (receive Message.expectResultId : Serving ResultId)
    let found := ResultStore.find? (← (get : Serving ResultStore)) id
    if found.isNone then
      modify fun intake =>
        { intake with missing := intake.missing.or (some (missingResult id worker.rank)) }
    if isTracked then modify fun intake => { intake with named := intake.named ++ [id] }
    return found

/-- Receives the tables of a context. Missing ones are left out, and named results are not
tracked. -/
def receiveTables (worker : Worker) :
    Named TableShipment → Receiving (Named TableSource)
  | [] => return []
  | (name, .path path) :: rest => do return (name, .path path) :: (← worker.receiveTables rest)
  | (name, .placeholder transfer) :: rest => do
    match ← worker.receiveTable false transfer with
    | some table => return (name, .data table) :: (← worker.receiveTables rest)
    | none => worker.receiveTables rest

mutual

/-- Receives the data of an argument and puts it in the place of the placeholders. -/
def receiveArgument (worker : Worker) : Skeleton → Receiving Value
  | .value value => return value
  | .placeholder transfer => do
    return ((← worker.receiveTable true transfer).map Value.table).getD .null
  | .tuple items => do return .tuple (← worker.receiveArguments items)
  | .map entries => do return .map (← worker.receiveEntries entries)
  | .context shipment => do
    let tables ← worker.receiveTables shipment.tables
    return .context { tables, catalog := shipment.catalog, timeZone := shipment.timeZone }

/-- Receives the data of several arguments, in order. -/
def receiveArguments (worker : Worker) : List Skeleton → Receiving (List Value)
  | [] => return []
  | item :: rest => do
    return (← worker.receiveArgument item) :: (← worker.receiveArguments rest)

/-- Receives the data of entries, in order. -/
def receiveEntries (worker : Worker) :
    List (String × Skeleton) → Receiving (List (String × Value))
  | [] => return []
  | (name, entry) :: rest => do
    return (name, ← worker.receiveArgument entry) :: (← worker.receiveEntries rest)

end

/-- A computation broke off. -/
def panicked (computation message : String) : Failure where
  kind := .remote
  message := "Computation panicked"
  fields := [("computation", computation), ("panic", message)]

/-- Runs a computation. Whatever it does, the worker goes on, unless it ends the worker or never
comes to its end. -/
def runComputation (worker : Worker) (context : CallContext) (name : String)
    (arguments : Arguments) : Serving (Except Failure Output) :=
  ExceptT.mk fun store =>
    let (outcome, store) := (worker.registry.call context name arguments).run store
    .done (match outcome with
      | .ok output => .ok (.ok output)
      | .error (.failed failure) => .ok (.error failure)
      | .error (.panicked message) => .ok (.error (panicked name message))
      | .error .exited => .error .vanished
      | .error .unending => .error .hung, store)

mutual

/-- Hands over an output: values on rank zero only, and the size of each partition, which is kept
under a name made of the call and the place among the partitions. Gives the next such place. -/
def sendOutput (worker : Worker) (call : CallId) (leaf : Nat) : Output → Serving Nat
  | .replicated value => do
    if worker.rank = 0 then send (.value value)
    return leaf
  | .distributed partition => do
    modify fun store => ResultStore.put store (.ofOutput call leaf) partition
    send (.partitionMeta (some (.ofBatch partition)))
    return leaf + 1
  | .tuple items => worker.sendOutputs call leaf items
  | .map entries => worker.sendEntries call leaf entries

/-- Hands over the items of a tuple. -/
def sendOutputs (worker : Worker) (call : CallId) (leaf : Nat) : List Output → Serving Nat
  | [] => return leaf
  | item :: rest => do worker.sendOutputs call (← worker.sendOutput call leaf item) rest

/-- Hands over the entries of a map. -/
def sendEntries (worker : Worker) (call : CallId) (leaf : Nat) :
    List (String × Output) → Serving Nat
  | [] => return leaf
  | (_, entry) :: rest => do worker.sendEntries call (← worker.sendOutput call leaf entry) rest

end

/-- Says how large the partition of a named result is now, if it is still stored. -/
def reportNamed (id : ResultId) : Serving Unit := do
  send (.partitionMeta ((ResultStore.find? (← get) id).map PartitionMeta.ofBatch))

/-- Carries out a call. -/
def execute (worker : Worker) : Serving Unit := do
  let environment ← receive Message.expectEnvironment
  let (positional, keyword) ← receive Message.expectArguments
  let ((positional, keyword), intake) ← (do
    let positional ← worker.receiveArguments positional
    return (positional, ← worker.receiveEntries keyword) :
      Receiving (List Value × Named Value)).run {}
  let (computation, call) ← receive Message.expectComputation
  let context : CallContext := {
    rank := worker.rank, size := worker.size, environment
    distributed := computation.options.distributedBlock }
  let outcome ← match intake.missing with
    | some failure => pure (.error failure)
    | none => worker.runComputation context computation.name { positional, keyword }
  send .completed
  send (.status (match outcome with
    | .ok _ => none
    | .error failure => some (.ofFailure failure)))
  let goOn ← receive Message.expectProceed
  match outcome, goOn with
  | .ok output, true =>
    if worker.rank = 0 then send (.outputShape output.distribution)
    let _ ← worker.sendOutput call 0 output
    intake.named.forM reportNamed
  | _, _ => return

/-- Carries out the command that was received. -/
def obey (worker : Worker) (received : Except Failure Message) : Serving Unit := do
  match ← accept Message.expectCommand received with
  | .execute => worker.execute
  | .gather =>
    let id ← receive Message.expectResultId
    send (.partition (ResultStore.find? (← get) id))
  | .deleteResult =>
    let id ← receive Message.expectResultId
    modify fun store => ResultStore.erase store id
  | .exit => throw .exited

/-- What the worker does with the message that comes next. -/
def next (worker : Worker) (store : ResultStore) (received : Except Failure Message) :
    Session (Except WorkerEnd Unit × ResultStore) :=
  (worker.obey received).run.run store

end Worker

end Rankwise

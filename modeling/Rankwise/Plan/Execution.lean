import Rankwise.Group.Spawner
import Rankwise.Plan.Cardinality
import Rankwise.Plan.Conversion
import Rankwise.Plan.Explain
import Rankwise.Settings
import Rankwise.Wire.Plan

/-!
# Running plans

A plan is run in this process, or on the workers of a group, where every rank runs it over its own
part of the tables. In the second case the tables that the plan scans are put onto the workers
first; then the whole plan is sent as an argument of a computation that all workers know.

The number of rows of a plan is taken from the plan itself where that says it, or else from the
engine, or else a plan that counts is run.

The log is not kept here. Of what goes into it only the text of the given plan is rendered, since
that can fail (`Executing.display`). What an engine shows of a plan that it has optimized, and the
timings and numbers of rows that `Setting.profile` asks for, cannot fail and change nothing, and are
left out.
-/

namespace Rankwise

/-- The name of the computation that runs a plan on the workers. -/
def executePlanName : String := "execute_plan"

/-- What is needed to run plans: an engine in some state, the settings, and workers if there are
any. -/
structure Executor (ε : Type) where
  state : ε
  settings : Settings := {}
  spawner : Option SpawnerId := none
  /-- How many plans were run. -/
  executedPlans : Nat := 0

/-- Running plans. -/
abbrev Executing (ε α : Type) := ExceptT Stop (StateT (Executor ε) (StateT World Dialogue)) α

/-- The table that a plan gives. -/
inductive PlanResult where
  | local (table : Batch)
  | distributed (frame : Frame)
deriving Repr

/-- The numbers of nodes of a plan before and after it is optimized. -/
structure PlanStatistics where
  before : Nat
  after : Nat
deriving DecidableEq, Repr

namespace Executing

variable {ε η : Type}

/-- Acts as the coordinator. -/
def coordinate {α : Type} (acting : Coordinating α) : Executing ε α :=
  ExceptT.mk (StateT.lift acting.run)

/-- Gives the failure of a result, if it has one. -/
def ofExcept {α : Type} (result : Except Failure α) : Executing ε α :=
  ExceptT.mk (pure (result.mapError Stop.failed))

/-- Lets the engine do something. -/
def engine {α : Type} (action : StateM ε (Except Stop α)) : Executing ε α :=
  ExceptT.mk fun executor =>
    let (answer, state) := action.run executor.state
    return (answer, { executor with state })

/-- The tables as the coordinator sees them. -/
def localResolver : Resolver (StateT (Executor ε) (StateT World Dialogue)) where
  table batch := return .ok batch
  lazyTable table := StateT.lift table.localTable.run

/-- The tables without rows, as far as they are on the workers. -/
def schemaResolver : Resolver (StateT (Executor ε) (StateT World Dialogue)) :=
  .schemaOnly fun table => do
    let world ← (get : Acting World)
    return (table.pending? world).map fun kept => kept.frame.schema

/-- Converts a plan. -/
def convert (engine : Engine ε η) (arena : Arena)
    (resolver : Resolver (StateT (Executor ε) (StateT World Dialogue))) (root : NodeId) :
    Executing ε η :=
  ExceptT.mk do
    let create name output arguments :=
      (Executing.engine (engine.create name output arguments).stopping).run
    return (← (Converting.node arena resolver create root).run.run []).1

/-- Shows a plan if the settings ask for it. What is shown goes into the log; what can fail is the
showing. -/
def display (arena : Arena) (root : NodeId) : Executing ε Unit := do
  if (← get).settings.dumpPlans then
    let world ← (get : Acting World)
    let _ ← ExceptT.mk (pure (arena.display world.names root))

/-- Notes that a plan was run. -/
def noteExecuted : Executing ε Unit :=
  modify fun executor => { executor with executedPlans := executor.executedPlans + 1 }

/-- Runs a plan in this process. The optimized plan and the timings, which the settings can ask for
as well, would only be logged. -/
def executeLocally (engine : Engine ε η) (arena : Arena) (root : NodeId) : Executing ε Batch := do
  let plan ← convert engine arena localResolver root
  display arena root
  let plan ← Executing.engine (engine.optimize plan).stopping
  let output ← ofExcept (arena.output root)
  let table ← Executing.engine (engine.execute plan output.kind output.schema).stopping
  noteExecuted
  return table

/-- There are no workers. -/
def noSpawner : Failure where
  kind := .invalidInput
  message := "Parallel execution requires a spawner"

/-- The plan mentions a table that was not put onto the workers. -/
def notWritable : Failure :=
  .ofForeign "Failed to serialize plan" "a table of the plan has no name on the workers"

/-- Puts the tables that a plan scans onto the workers, in the order in which they are found. -/
def settleScans (arena : Arena) (root : NodeId) (spawner : SpawnerId) : Coordinating Nat := do
  let walk := arena.scans root
  walk.found.forM fun (_, table) => do let _ ← table.settle spawner
  Coordinating.ofExcept walk.outcome
  return walk.found.length

/-- Runs a plan on the workers. The result stays there. -/
def executeOnWorkers (arena : Arena) (root : NodeId) : Executing ε Frame := do
  let some spawner := (← get).spawner | ofExcept (.error noSpawner)
  display arena root
  let _ ← coordinate (settleScans arena root spawner)
  let world ← (get : Acting World)
  let some payload := RootedPlan.encode? world.names { arena, root } | ofExcept (.error notWritable)
  let (_, answer) ← coordinate (spawner.submit
    { name := executePlanName, parameters := ["plan"] }
    { positional := [.value (.json payload.sorted)] })
  let answer ← ofExcept answer
  let frame ← coordinate answer.toFrame
  noteExecuted
  return frame

/-- Runs a plan where the settings say. -/
def execute (engine : Engine ε η) (arena : Arena) (root : NodeId) : Executing ε PlanResult := do
  if (← get).settings.runParallel then return .distributed (← executeOnWorkers arena root)
  else return .local (← executeLocally engine arena root)

/-- The table of a frame, which is given up. -/
def fetch (frame : Frame) : Executing ε Batch :=
  coordinate (ExceptT.mk do
    let table ← frame.table.run
    frame.release
    return table)

/-- The table that a plan has given. -/
def table : PlanResult → Executing ε Batch
  | .local table => return table
  | .distributed frame => fetch frame

/-- The number of rows of a plan, if it is known without running it. A plan that scans tables on the
workers is not shown to the engine for this, since the engine would need the tables. -/
def knownRows (engine : Engine ε η) (arena : Arena) (root : NodeId) :
    Executing ε (Option Nat) := do
  if let some rows ← ExceptT.mk (pure (arena.staticRows root)) then return some rows
  if ← ofExcept (arena.hasScan root) then return none
  let plan ← convert engine arena localResolver root
  return engine.rows plan (← get).state

/-- The plan that counts has given no column. -/
def noCounts : Failure := .missing "count column"

/-- The plan that counts has given something that is no number. -/
def notCount (value : Scalar) : Failure where
  kind := .backend
  message := "Count plan returned a non-integer value"
  fields := [("value", value.text)]

/-- Adds up what the plan that counts has given: one number locally, one per rank on the workers.
The sum is taken without bound: where it is no machine word, the program breaks off or wraps around.
-/
def total (counts : List Scalar) : Except Failure Nat :=
  counts.foldlM (fun sum value =>
    match value.count? with
    | some count => .ok (sum + count)
    | none => .error (notCount value)) 0

/-- The number of rows of a plan. The plan may grow by one that counts. -/
def count (engine : Engine ε η) (root : NodeId) (arena : Arena) :
    StateT (Executor ε) (StateT World Dialogue) (Except Stop Nat × Arena) := do
  match ← (knownRows engine arena root).run with
  | .error stop => return (.error stop, arena)
  | .ok (some rows) => return (.ok rows, arena)
  | .ok none =>
    match (Building.countPlan root).run.run arena with
    | (.error stop, arena) => return (.error stop, arena)
    | (.ok counting, arena) =>
      let counted ← (do
        let onWorkers ← (do
          if (← get).spawner.isSome then ofExcept (arena.hasScan counting) else return false :
          Executing ε Bool)
        let table ← if onWorkers then fetch (← executeOnWorkers arena counting)
          else table (← execute engine arena counting)
        match table.column? 0 with
        | some counts => ofExcept (total counts)
        | none => ofExcept (.error noCounts) : Executing ε Nat).run
      return (counted, arena)

/-- The numbers of nodes of a plan before and after it is optimized. Tables on the workers are taken
without their rows. -/
def statistics (engine : Engine ε η) (arena : Arena) (root : NodeId) :
    Executing ε PlanStatistics := do
  let plan ← convert engine arena schemaResolver root
  let before := engine.size plan (← get).state
  let plan ← Executing.engine (engine.optimize plan).stopping
  return { before, after := engine.size plan (← get).state }

end Executing

/-! The computation on the workers. -/

/-- The argument is no plan. -/
def notPlan (got : Value) : Failure where
  kind := .invalidInput
  message := "Expected a plan argument"
  fields := [("got", got.kindName)]

/-- The plan that was sent. -/
def receivedPlan : Value → Except Failure RootedPlan
  | .json written =>
    match Json.readValue? RootedPlan.decode written with
    | some plan => .ok plan
    | none => .error (.ofForeign "Failed to decode plan" "not a plan")
  | other => .error (notPlan other)

/-- Runs a plan over the part of the tables that belongs to a rank, with an engine in its first
state. -/
def runOnRank {ε η : Type} (engine : Engine ε η) (fresh : ε) (plan : RootedPlan) (rank size : Nat)
    (stored : ResultId → Option Batch) : Except Stop Batch :=
  let running : StateM ε (Except Stop Batch) := ExceptT.run do
    let handle ← ExceptT.mk (plan.arena.convert engine
      (.ofRank rank size (fun _ => none) stored) plan.root)
    let handle ← ExceptT.mk (engine.optimize handle).stopping
    let output ← ExceptT.mk (pure ((plan.arena.output plan.root).mapError Stop.failed))
    ExceptT.mk (engine.execute handle output.kind output.schema).stopping
  (running.run fresh).1

/-- The computation that runs a plan on every rank. Its output is distributed. -/
def Body.executePlan {ε η : Type} (engine : Engine ε η) (fresh : ε) : Body :=
  fun context _ arguments => do
    let argument ← (arguments.at? 0 : Except Failure Value)
    let plan ← receivedPlan argument
    let store : ResultStore ← get
    let table ← (runOnRank engine fresh plan context.rank context.size store.find? :
      Except Stop Batch)
    return .distributed table

end Rankwise

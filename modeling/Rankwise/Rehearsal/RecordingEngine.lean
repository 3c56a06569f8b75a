import Rankwise.Plan.Engine

/-!
# An engine that writes down what it is asked

A stand-in for a real engine. It builds no plan that could be run but keeps account of handles: a
handle that was taken over by a node cannot be used again. What it gives when a plan is run is
chosen beforehand, or is the first table that it finds in the plan.
-/

namespace Rankwise.Rehearsal

/-- What optimizing does. -/
inductive Optimizing where
  | nothing
  | firstChild
  | failing
deriving DecidableEq, Repr

/-- How the engine is to behave. -/
structure EngineOptions where
  /-- The number of rows that it claims to know. -/
  rows : Option Nat := none
  /-- The kind of node that it refuses to build. -/
  refused : Option String := none
  /-- Whether it fails to run plans. -/
  failsToExecute : Bool := false
  optimizing : Optimizing := .nothing

/-- What the engine was asked. -/
inductive EngineEvent where
  | refused (name : String) (output : OutputSchema) (arguments : List (EngineArgument Nat))
  | created (handle : Nat) (name : String) (output : OutputSchema)
      (arguments : List (EngineArgument Nat))
  | optimized (handle : Nat)
  | executed (handle : Nat) (kind : OutputKind) (schema : Schema)

/-- A node that was built. -/
structure RecordedNode where
  name : String
  children : List Nat
  tables : List Batch

/-- The nodes so far, by their handles, the handles that were taken over, and what was asked. -/
structure Recording where
  options : EngineOptions := {}
  /-- The tables that are given for the next plans that are run. -/
  results : List Batch := []
  nodes : List RecordedNode := []
  taken : List Nat := []
  log : List EngineEvent := []

namespace Recording

/-- The name of a node. -/
def nameOf (recording : Recording) (handle : Nat) : String :=
  (recording.nodes[handle]?.map RecordedNode.name).getD ""

/-- A handle is used that was taken over. -/
def alreadyTaken (kind name : String) : Failure where
  kind := .internal
  message := kind ++ " handle already transferred"
  fields := [("node", name)]

/-- Writes something down. -/
def note (event : EngineEvent) : EngineAction Recording Unit :=
  modify fun recording => { recording with log := recording.log ++ [event] }

/-- The node that is being built. -/
abbrev Gathering (α : Type) := StateT (List Nat × List Batch) (ExceptT Failure (StateM Recording)) α

mutual

/-- Takes something over into the node that is being built. -/
def take : EngineArgument Nat → Gathering Unit
  | .owned handle => do
    let recording ← (get : EngineAction Recording Recording)
    if recording.taken.contains handle then
      throw (alreadyTaken "Owned" (recording.nameOf handle))
    (set { recording with taken := recording.taken ++ [handle] } : EngineAction Recording Unit)
    modify fun (children, tables) => (children ++ [handle], tables)
  | .borrowed handle => do
    let recording ← (get : EngineAction Recording Recording)
    if recording.taken.contains handle then
      throw (alreadyTaken "Borrowed" (recording.nameOf handle))
  | .list items => takeAll items
  | .table batch => modify fun (children, tables) => (children, tables ++ [batch])
  | _ => return

/-- Takes several things over, in order. -/
def takeAll : List (EngineArgument Nat) → Gathering Unit
  | [] => return
  | item :: rest => do
    take item
    takeAll rest

end

/-- Builds a node. -/
def create (name : String) (output : OutputSchema) (arguments : List (EngineArgument Nat)) :
    EngineAction Recording Nat := do
  if (← get).options.refused = some name then
    note (.refused name output arguments)
    throw { kind := .backend, message := "mock failure", fields := [("node", name)] }
  let ((), children, tables) ← (takeAll arguments).run ([], [])
  let handle := (← get).nodes.length
  modify fun recording =>
    { recording with nodes := recording.nodes ++ [{ name, children, tables }] }
  note (.created handle name output arguments)
  return handle

/-- Optimizes a plan as the options say. -/
def optimize (handle : Nat) : EngineAction Recording Nat := do
  note (.optimized handle)
  let recording ← get
  match recording.options.optimizing with
  | .nothing => return handle
  | .failing => throw { kind := .backend, message := "optimizer failure" }
  | .firstChild =>
    return ((recording.nodes[handle]?.bind fun node => node.children.head?)).getD handle

/-- The nodes of a plan, each before its children. A child is older than its parent, so a limit of
one more than the handle is enough. -/
def planWithin (recording : Recording) : Nat → Nat → List RecordedNode
  | 0, _ => []
  | limit + 1, handle =>
    match recording.nodes[handle]? with
    | none => []
    | some node => node :: node.children.flatMap (recording.planWithin limit)

/-- The nodes of a plan, each before its children. -/
def plan (recording : Recording) (handle : Nat) : List RecordedNode :=
  recording.planWithin (handle + 1) handle

/-- Runs a plan: gives the next chosen table, or the first one in the plan, or one without rows. -/
def execute (handle : Nat) (kind : OutputKind) (schema : Schema) :
    EngineAction Recording Batch := do
  note (.executed handle kind schema)
  let recording ← get
  if recording.options.failsToExecute then
    throw { kind := .backend, message := "executor failure",
            fields := [("node", recording.nameOf handle)] }
  match recording.results with
  | result :: results =>
    set { recording with results }
    return result
  | [] =>
    let tables := (recording.plan handle).flatMap RecordedNode.tables
    return tables.head?.getD (Batch.empty schema)

/-- The engine that writes down what it is asked. -/
def engine : Engine Recording Nat where
  create := create
  optimize := optimize
  execute := execute
  size handle recording := (recording.plan handle).length
  rows _ recording := recording.options.rows

end Recording

end Rankwise.Rehearsal

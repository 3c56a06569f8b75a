import Rankwise.Plan.Scan

/-!
# Engines

The engine that optimizes and runs plans is not part of this library. It builds its own plan node by
node: for each node it is given the name of its kind, the shape of its output and what it is built
from, and it gives a handle. A handle that is *owned* goes over to the node that is built from it
and is not used again; a handle that is *borrowed* is only referred to. The state of the engine
stays as it is after a failure.

The tables that a plan scans are not the same for everyone who runs it: the coordinator sees whole
tables, a rank sees its own part, and whoever only looks at the plan needs no rows at all.
-/

namespace Rankwise

/-- What an engine builds a node from. -/
inductive EngineArgument (η : Type) where
  /-- A handle that goes over to the node. -/
  | owned (handle : η)
  /-- A handle that the node refers to. -/
  | borrowed (handle : η)
  | list (items : List (EngineArgument η))
  | scalar (value : Scalar)
  | text (content : String)
  | index (value : Nat)
  | indices (values : List Nat)
  | boolean (value : Bool)
  | options (entries : List (String × String))
  | table (batch : Batch)
  | absent

/-- What an engine does, with a state of its own. -/
abbrev EngineAction (ε α : Type) := ExceptT Failure (StateM ε) α

/-- An engine with states `ε` and handles `η`. -/
structure Engine (ε η : Type) where
  /-- Builds a node. -/
  create : String → OutputSchema → List (EngineArgument η) → EngineAction ε η
  /-- Gives a better plan with the same output. -/
  optimize : η → EngineAction ε η
  /-- Runs a plan. -/
  execute : η → OutputKind → Schema → EngineAction ε Batch
  /-- The number of nodes of a plan. -/
  size : η → ε → Nat
  /-- The number of rows that a plan gives, if the engine knows it. -/
  rows : η → ε → Option Nat

/-- Where the tables come from that a plan scans. -/
structure Resolver (m : Type → Type) where
  /-- A table that the plan itself holds. -/
  table : Batch → m (Except Stop Batch)
  /-- A table on the workers. -/
  lazyTable : LazyTable → m (Except Stop Batch)

namespace Resolver

/-- There is no table here whose schema could be taken. -/
def noSchema : Failure where
  kind := .internal
  message := "Distributed argument has no local schema"

/-- Gives tables on the workers as tables without rows. -/
def schemaOnly {m : Type → Type} [Monad m] (schemaOf : LazyTable → m (Option Schema)) :
    Resolver m where
  table batch := return .ok batch
  lazyTable table := do
    match ← schemaOf table with
    | some schema => return .ok (Batch.empty schema)
    | none => return .error (.failed noSchema)

/-- There is no such rank. -/
def noSuchRank (rank size : Nat) : Failure where
  kind := .internal
  message := "Rank out of range for partitioning"
  fields := [("rank", toString rank), ("size", toString size)]

/-- The table has not been put onto the workers. -/
def notScattered : Failure where
  kind := .internal
  message := "Distributed argument was not initialized before submit"

/-- The rank does not store a result. -/
def notStored (id : ResultId) (rank : Nat) : Failure where
  kind := .protocol
  message := "Result not found on worker"
  fields := [("result_id", id.text), ("rank", toString rank)]

/-- The block of a table that belongs to a rank. -/
def blockOf (rank size : Nat) (table : Batch) : Except Failure Batch := do
  match (← table.splitEven size)[rank]? with
  | some block => return block
  | none => throw (noSuchRank rank size)

/-- The partition that a rank stores. -/
def partitionOf (rank : Nat) (names : LazyNames) (stored : ResultId → Option Batch)
    (table : LazyTable) : Except Failure Batch :=
  match table.resultId? names with
  | none => .error notScattered
  | some id =>
    match stored id with
    | some partition => .ok partition
    | none => .error (notStored id rank)

/-- Gives what belongs to one rank: its block of a table that the plan holds, and the partition that
it stores of a table on the workers. -/
def ofRank {m : Type → Type} [Monad m] (rank size : Nat) (names : LazyNames)
    (stored : ResultId → Option Batch) : Resolver m where
  table batch := return (blockOf rank size batch).mapError Stop.failed
  lazyTable table := return (partitionOf rank names stored table).mapError Stop.failed

end Resolver

end Rankwise

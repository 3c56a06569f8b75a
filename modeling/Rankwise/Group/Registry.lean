import Rankwise.Failure
import Rankwise.Group.Computation

/-!
# Computations on the workers

Every worker knows the same computations under the same names. While a computation runs it sees its
rank, the size of the group and the variables of the call, and it can use the partitions that the
worker keeps. It may call another computation; that happens on the same worker and within the same
call.
-/

namespace Rankwise

/-- The partitions that a worker keeps, by the results they belong to. -/
abbrev ResultStore := List (ResultId × Batch)

namespace ResultStore

/-- The partition of a result. -/
def find? (store : ResultStore) (id : ResultId) : Option Batch := store.lookup id

/-- Forgets the partition of a result. -/
def erase (store : ResultStore) (id : ResultId) : ResultStore :=
  store.filter fun entry => entry.1 ≠ id

/-- Keeps a partition of a result, in place of the one that was kept before. -/
def put (store : ResultStore) (id : ResultId) (partition : Batch) : ResultStore :=
  store.erase id ++ [(id, partition)]

end ResultStore

/-- What a computation can see of its call. -/
structure CallContext where
  rank : Nat
  /-- The number of workers in the group. -/
  size : Nat
  /-- The variables that the coordinator has handed on for the call. -/
  environment : Named String
  /-- The parameters whose tables arrived as partitions. -/
  distributed : List String

/-- Whether a parameter arrived as a partition and not as a full copy. -/
def CallContext.isDistributed (context : CallContext) (parameter : String) : Bool :=
  context.distributed.contains parameter

/-- Why a computation does not give a result. -/
inductive Interrupt where
  | failed (failure : Failure)
  /-- It broke off with a text. -/
  | panicked (message : String)
  /-- It ended the worker. -/
  | exited
  | unending

/-- A computation that runs on a worker and uses what the worker keeps. Where it is interrupted,
what it changed until then stays changed. -/
abbrev Running (α : Type) := ExceptT Interrupt (StateM ResultStore) α

instance : MonadLift (Except Failure) Running where
  monadLift
    | .ok value => pure value
    | .error failure => throw (.failed failure)

instance : MonadLift (Except Stop) Running where
  monadLift
    | .ok value => pure value
    | .error (.failed failure) => throw (.failed failure)
    | .error .unending => throw .unending
    | .error .overflow => throw (.panicked "attempt to add with overflow")

/-- The positional and the named arguments of a call, as a rank receives them. -/
structure Arguments where
  positional : List Value := []
  keyword : Named Value := []

namespace Arguments

/-- There is no argument at this place. -/
def missing (index size : Nat) : Failure where
  kind := .invalidInput
  message := "Missing positional argument"
  fields := [("idx", toString index), ("num_args", toString size)]

/-- The positional argument at a place. -/
def at? (arguments : Arguments) (index : Nat) : Except Failure Value :=
  match arguments.positional[index]? with
  | some value => .ok value
  | none => .error (missing index arguments.positional.length)

/-- The argument at this place is no table. -/
def notTable (index : Nat) (got : Value) : Failure where
  kind := .invalidInput
  message := "Expected a table argument"
  fields := [("idx", toString index), ("got", got.kindName)]

/-- The table at a place among the positional arguments. -/
def tableAt (arguments : Arguments) (index : Nat) : Except Failure Batch := do
  let value ← arguments.at? index
  match value.table? with
  | some table => return table
  | none => throw (notTable index value)

end Arguments

/-- A registered computation: it is told about its call, how to call others, and its arguments. -/
abbrev Body :=
  CallContext → (invoke : String → Arguments → Running Output) → Arguments → Running Output

/-- The computations that a worker knows. -/
structure Registry where
  bodies : List (String × Body) := []
  /-- How many calls may be open within one another. Deeper ones never return. -/
  depthLimit : Nat := 65536

namespace Registry

/-- No computation has this name. -/
def unknown (name : String) : Failure where
  kind := .invalidInput
  message := "Missing computation"
  fields := [("name", name)]

/-- The computation with a name. Of several with one name the last one counts. -/
def body (registry : Registry) (name : String) : Except Failure Body :=
  match registry.bodies.reverse.lookup name with
  | some body => .ok body
  | none => .error (unknown name)

/-- Whether there is a computation with a name. -/
def contains (registry : Registry) (name : String) : Bool :=
  (registry.bodies.lookup name).isSome

/-- Adds computations. -/
def adding (registry : Registry) (bodies : List (String × Body)) : Registry :=
  { registry with bodies := registry.bodies ++ bodies }

/-- Runs the computation with a name, opening no more calls within one another than the limit
allows. -/
def callWithin (registry : Registry) (context : CallContext) :
    Nat → String → Arguments → Running Output
  | 0, _, _ => throw .unending
  | limit + 1, name, arguments => do
    let body ← registry.body name
    body context (registry.callWithin context limit) arguments

/-- Runs the computation with a name. -/
def call (registry : Registry) (context : CallContext) (name : String) (arguments : Arguments) :
    Running Output :=
  registry.callWithin context registry.depthLimit name arguments

end Registry

/-! The computations that every worker knows. -/

namespace Body

/-- The name of the computation that keeps a partition as a result. -/
def scatterName : String := "scatter_data"

/-- Keeps the partition that arrived as a distributed result. -/
def scatter : Body := fun _ _ arguments => do
  return .distributed (← (arguments.tableAt 0 : Except Failure Batch))

/-- Gives the arguments back: one as it is, any other number of them as a tuple. -/
def echo : Body := fun _ _ arguments =>
  match arguments.positional with
  | [value] => return .replicated value
  | values => return .replicated (.tuple values)

/-- The schema of a report on partitions. -/
def partitionInfoSchema : Schema where
  fields := [
    { name := "rank", datatype := .uint64, nullable := false },
    { name := "num_rows", datatype := .uint64, nullable := false }]

/-- Gives one row per rank: the rank and the number of rows in its partition. -/
def partitionInfo : Body := fun context _ arguments => do
  let partition ← (arguments.tableAt 0 : Except Failure Batch)
  return .distributed {
    schema := partitionInfoSchema
    columns := [[.ofCount context.rank], [.ofCount partition.rows]]
    rows := 1 }

end Body

/-- The computations that every worker knows. -/
def Registry.builtins : Registry where
  bodies := [(Body.scatterName, .scatter), ("echo", .echo), ("partition_info", .partitionInfo)]

end Rankwise

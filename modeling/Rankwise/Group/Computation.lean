import Rankwise.Group.Value

/-!
# Computations and their outputs

A computation is named by the coordinator and looked up by the workers. It comes with the names of
its positional parameters and with options for the transfer of its arguments. What a rank hands
back is an `Output`: a tree whose leaves are values that are the same on every rank, and partitions
of distributed tables. Its `Distribution` is the same tree without the data.
-/

namespace Rankwise

/-- Options for the transfer of arguments. -/
structure Computation.Options where
  /-- Parameters whose tables are sent whole to every rank. -/
  replicated : List String := []
  /-- Parameters whose tables are sent with the call. The transfer adds to them. -/
  distributedBlock : List String := []
  /-- Variables of the surroundings to forward for the call. -/
  propagateEnvironment : List String := []
deriving DecidableEq, Repr

/-- A call to a registered computation. -/
structure Computation where
  name : String
  /-- The names of the positional parameters. -/
  parameters : List String := []
  options : Computation.Options := {}
deriving DecidableEq, Repr

namespace Computation

/-- The name of the positional parameter at a place. One without a name is called by its place. -/
def parameterName (computation : Computation) (index : Nat) : String :=
  computation.parameters[index]?.getD ("arg" ++ toString index)

/-- Whether tables for the parameter are sent whole to every rank. -/
def isReplicated (computation : Computation) (parameter : String) : Bool :=
  computation.options.replicated.contains parameter

/-- Adds parameters to those whose tables are sent with the call, each once. -/
def withDistributed (computation : Computation) (parameters : List String) : Computation :=
  let known := parameters.foldl
    (fun known parameter => if known.contains parameter then known else known ++ [parameter])
    computation.options.distributedBlock
  { computation with options := { computation.options with distributedBlock := known } }

end Computation

/-- What a computation hands back on one rank. -/
inductive Output where
  /-- A value that is the same on every rank. Only that of rank zero is returned. -/
  | replicated (value : Value)
  /-- The partition of this rank of a distributed table. -/
  | distributed (partition : Batch)
  | tuple (items : List Output)
  | map (entries : List (String × Output))
deriving Repr

/-- The shape of an output. -/
inductive Distribution where
  | replicated
  | distributed
  | tuple (items : List Distribution)
  | map (entries : List (String × Distribution))
deriving Repr

namespace Output

mutual

/-- The shape of the output. -/
def distribution : Output → Distribution
  | replicated _ => .replicated
  | distributed _ => .distributed
  | tuple items => .tuple (distributions items)
  | map entries => .map (entryDistributions entries)

/-- The shapes of the items. -/
def distributions : List Output → List Distribution
  | [] => []
  | item :: rest => distribution item :: distributions rest

/-- The shapes of the entries. -/
def entryDistributions : Named Output → Named Distribution
  | [] => []
  | (name, entry) :: rest => (name, distribution entry) :: entryDistributions rest

end

end Output

end Rankwise

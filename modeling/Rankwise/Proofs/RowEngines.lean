import Rankwise.Proofs.RowPlans
import Rankwise.Proofs.Rows

/-!
# Engines that work row by row

What an engine is and does inside is not known here. `RowMeaning` says what its handles stand for:
relations with their rows, or expressions with a value on every row. `WorksByRows` says that the
engine deals with a plan accordingly and without failing: a scan gives the rows of the table that is
handed in, a filter keeps the rows on which its predicate is true, and a projection gives the values
of its expressions on each row. A handle that goes over to a node need not stand for anything
afterwards.

The contract is one case of a more general one, which leaves open what operators make of the rows of
the relation below them.
-/

namespace Rankwise

variable {ε η : Type}

/-- Something that a handle stands for. -/
inductive Item where
  /-- What a node gives, with its rows. -/
  | relation (id : NodeId) (rows : List Row)
  | expression (id : NodeId)

/-- What the handles of an engine mean. -/
structure RowMeaning (ε η : Type) where
  /-- In this state the handles stand for these items, all at once. -/
  holds : ε → List (η × Item) → Prop
  /-- The value of an expression on a row. -/
  value : NodeId → Row → Scalar
  /-- Whether a row is kept on which a predicate has this value. -/
  passes : Scalar → Bool
  /-- The schema of the tables that are given in the end. -/
  shape : Schema

/-- What an operand is to the engine that refers to nothing. -/
def Operand.plain? : Operand → Option (EngineArgument η)
  | .scalar value => some (.scalar value)
  | .text content => some (.text content)
  | .index value => some (.index value)
  | .indices values => some (.indices values)
  | .boolean value => some (.boolean value)
  | .options entries => some (.options entries)
  | .absent => some .absent
  | _ => none

/-- The arguments are these operands, with handles for the nodes that they refer to. The handles
that go over are listed with what they stand for; those that are lent stand for something that
stays. -/
inductive Presents (stays : List (η × Item)) :
    List Operand → List (EngineArgument η) → List (η × Item) → Prop
  | nil : Presents stays [] [] []
  | input (id : NodeId) (rows : List Row) (handle : η) (items : List Operand)
      (arguments : List (EngineArgument η)) (taken : List (η × Item))
      (rest : Presents stays items arguments taken) :
      Presents stays (.input id :: items) (.owned handle :: arguments)
        ((handle, .relation id rows) :: taken)
  | source (id : NodeId) (rows : List Row) (handle : η) (items : List Operand)
      (arguments : List (EngineArgument η)) (taken : List (η × Item))
      (lent : (handle, .relation id rows) ∈ stays) (rest : Presents stays items arguments taken) :
      Presents stays (.source id :: items) (.borrowed handle :: arguments) taken
  | expression (id : NodeId) (handle : η) (items : List Operand)
      (arguments : List (EngineArgument η)) (taken : List (η × Item))
      (rest : Presents stays items arguments taken) :
      Presents stays (.expression id :: items) (.owned handle :: arguments)
        ((handle, .expression id) :: taken)
  | list (inside items : List Operand) (given arguments : List (EngineArgument η))
      (takenInside taken : List (η × Item)) (listed : Presents stays inside given takenInside)
      (rest : Presents stays items arguments taken) :
      Presents stays (.list inside :: items) (.list given :: arguments) (takenInside ++ taken)
  | plain (item : Operand) (argument : EngineArgument η) (items : List Operand)
      (arguments : List (EngineArgument η)) (taken : List (η × Item))
      (same : item.plain? = some argument) (rest : Presents stays items arguments taken) :
      Presents stays (item :: items) (argument :: arguments) taken

/-- What a scan is built from, given the table that it scans. -/
def Operator.scanArguments (table : Batch) : Operator → List (EngineArgument η)
  | partitionScan _ rows => [.table table, .index rows]
  | _ => [.table table]

namespace RowMeaning

variable (meaning : RowMeaning ε η)

/-- What a filter or a projection does with each row of the relation below it: a filter keeps those
on which its predicate is true, a projection gives the values of its expressions. -/
def step? : Operator → Option (NodeId × (Row → Option Row))
  | .filter source predicate =>
    some (source, Option.guard fun row => meaning.passes (meaning.value predicate row))
  | .projection source expressions =>
    some (source, fun row => some (expressions.map fun part => meaning.value part row))
  | _ => none

/-- A step is for an operator over one relation. -/
theorem inputs_of_step {meaning : RowMeaning ε η} {operator : Operator} {source : NodeId}
    {step : Row → Option Row} (steps : meaning.step? operator = some (source, step)) :
    operator.inputs = [source] := by
  cases operator with
  | filter | projection =>
    obtain ⟨rfl, -⟩ := Prod.mk.inj (Option.some.inj steps)
    rfl
  | _ => cases steps

/-- In this state the engine builds a node of which the handle stands for the item, and the others
keep standing for what they stand for. -/
def Creates (engine : Engine ε η) (node : Node) (arguments : List (EngineArgument η)) (state : ε)
    (item : Item) (others : List (η × Item)) : Prop :=
  ∃ handle after, (engine.create node.name node.output arguments).run.run state =
      (.ok handle, after) ∧ meaning.holds after ((handle, item) :: others)

/-- The engine deals with a plan row by row and without failing, if the tables that are handed to
the scans are of this kind. -/
structure WorksByRows (engine : Engine ε η) (arena : Arena) (root : NodeId) (handed : Batch → Prop) :
    Prop where
  /-- The order in which handles are listed does not matter. -/
  reorder : ∀ state held other, meaning.holds state held → held.Perm other →
    meaning.holds state other
  /-- A scan gives the rows of the table that is handed to it. -/
  scan : ∀ id node operator table others state, arena.nodes[id.index]? = some node →
    node.content = .operator operator → operator.scansTable = true → handed table →
      meaning.holds state others →
        meaning.Creates engine node (operator.scanArguments table) state
          (.relation id table.rowList) others
  /-- An expression is built from its parts. -/
  expression : ∀ id node expression arguments taken others state,
    arena.nodes[id.index]? = some node → node.content = .expression expression →
      expression.needsRowOnly = true → Presents others node.operands arguments taken →
        meaning.holds state (taken ++ others) →
          meaning.Creates engine node arguments state (.expression id) others
  /-- A filter or a projection does its step with each row of the relation below. -/
  step : ∀ id node operator source step rows arguments taken others state,
    arena.nodes[id.index]? = some node → node.content = .operator operator →
      meaning.step? operator = some (source, step) →
        Presents others node.operands arguments taken →
          (∃ handle, (handle, .relation source rows) ∈ taken) →
            meaning.holds state (taken ++ others) →
              meaning.Creates engine node arguments state (.relation id (rows.filterMap step)) others
  /-- What is optimized gives the same rows. -/
  optimize : ∀ handle rows state, meaning.holds state [(handle, .relation root rows)] →
    ∃ better after, (engine.optimize handle).run.run state = (.ok better, after) ∧
      meaning.holds after [(better, .relation root rows)]
  /-- What is run gives the table of its rows. -/
  execute : ∀ handle rows output state, arena.output root = .ok output →
    meaning.holds state [(handle, .relation root rows)] →
      ∃ after, (engine.execute handle output.kind output.schema).run.run state =
        (.ok (.ofRows meaning.shape rows), after)

end RowMeaning

end Rankwise

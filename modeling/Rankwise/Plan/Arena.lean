import Rankwise.Failure
import Rankwise.Plan.Operand

/-!
# Plans

A plan is an arena of nodes, each an operator or an expression, together with the shape of what it
produces. Nodes are named by their places and are never changed; a plan grows at its end. A node is
accepted only if everything it refers to is there already and is of the right sort, so a plan that
was built here has no cycles. A plan that was read from a text may have some, and whatever walks
along references carries a bound for that case.
-/

namespace Rankwise

/-- Whether something is a table or a single column. -/
inductive OutputKind where
  | frame
  | singleColumn
deriving DecidableEq, Repr

/-- The words for the kind of output. -/
def OutputKind.text : OutputKind → String
  | frame => "frame"
  | singleColumn => "single column"

/-- The shape of what a node produces. -/
structure OutputSchema where
  schema : Schema
  kind : OutputKind
deriving DecidableEq, Repr

namespace OutputSchema

/-- The shape of a table. -/
def ofSchema (schema : Schema) : OutputSchema := { schema, kind := .frame }

/-- The shape of a single column. -/
def ofField (field : Field) : OutputSchema :=
  { schema := { fields := [field] }, kind := .singleColumn }

/-- Whether the output is a single column. -/
def isSingleColumn (output : OutputSchema) : Bool := decide (output.kind = .singleColumn)

/-- The shape as people see it. -/
def text (output : OutputSchema) : String := output.kind.text ++ " " ++ output.schema.text

end OutputSchema

/-- What a node computes. -/
inductive Node.Content where
  | operator (operator : Operator)
  | expression (expression : Expression)
deriving DecidableEq, Repr

/-- A node of a plan. -/
structure Node where
  output : OutputSchema
  content : Node.Content
deriving DecidableEq, Repr

namespace Node

/-- The name by which the engine knows this kind of node. -/
def name (node : Node) : String :=
  match node.content with
  | .operator operator => operator.name
  | .expression expression => expression.name

/-- What the node is built from. -/
def operands (node : Node) : List Operand :=
  match node.content with
  | .operator operator => operator.operands
  | .expression expression => expression.operands

/-- The nodes that the node refers to, each with its role. -/
def references (node : Node) : List (Role × NodeId) := Operand.referencesOf node.operands

/-- Whether the node is an expression. -/
def isExpression (node : Node) : Bool :=
  match node.content with
  | .operator _ => false
  | .expression _ => true

end Node

/-- The nodes of a plan, by their places. -/
structure Arena where
  nodes : List Node := []
deriving DecidableEq, Repr

namespace Arena

/-- The number of nodes. -/
def size (arena : Arena) : Nat := arena.nodes.length

/-- There is no node at this place. -/
def unknownNode (id : NodeId) (size : Nat) : Failure where
  kind := .plan
  message := "Unknown plan node"
  fields := [("id", id.text), ("num_nodes", toString size)]

/-- An operator is asked for where there is an expression. -/
def notOperator (id : NodeId) (got : String) : Failure where
  kind := .plan
  message := "Expected an operator node"
  fields := [("id", id.text), ("got", got)]

/-- An expression is asked for where there is an operator. -/
def notExpression (id : NodeId) (got : String) : Failure where
  kind := .plan
  message := "Expected an expression node"
  fields := [("id", id.text), ("got", got)]

/-- The node at a place. -/
def node (arena : Arena) (id : NodeId) : Except Failure Node :=
  match arena.nodes[id.index]? with
  | some node => .ok node
  | none => .error (unknownNode id arena.size)

/-- What the node at a place produces. -/
def output (arena : Arena) (id : NodeId) : Except Failure OutputSchema := do
  return (← arena.node id).output

/-- The operator at a place. -/
def operator (arena : Arena) (id : NodeId) : Except Failure Operator := do
  match (← arena.node id).content with
  | .operator operator => return operator
  | .expression expression => throw (notOperator id expression.name)

/-- The expression at a place. -/
def expression (arena : Arena) (id : NodeId) : Except Failure Expression := do
  match (← arena.node id).content with
  | .expression expression => return expression
  | .operator operator => throw (notExpression id operator.name)

/-- Whether there is an expression at a place. -/
def isExpression (arena : Arena) (id : NodeId) : Bool :=
  arena.nodes[id.index]?.any Node.isExpression

/-- How many references a walk may follow one after the other. A longer walk has met some node three
times, so it goes round for ever. -/
def walkLimit (arena : Arena) : Nat := 2 * arena.size + 2

/-- A composite expression has no expression among its parts. -/
def noPart (id : NodeId) : Failure where
  kind := .plan
  message := "Expression has no expression operand"
  fields := [("id", id.text)]

/-- The relation that an expression is evaluated against: the source of its first leaf. -/
def sourceWithin (arena : Arena) : Nat → NodeId → Except Stop NodeId
  | 0, _ => .error .unending
  | limit + 1, id => do
    let expression ← arena.expression id
    match expression.source?, expression.parts with
    | some source, _ => return source
    | none, first :: _ => arena.sourceWithin limit first
    | none, [] => throw (.failed (noPart id))

/-- The relation that an expression is evaluated against. -/
def sourceOf (arena : Arena) (id : NodeId) : Except Stop NodeId :=
  arena.sourceWithin arena.walkLimit id

/-- A reference to an expression leads to an operator. -/
def relationReferred (id : NodeId) (got : String) : Failure where
  kind := .plan
  message := "Operand must be an expression"
  fields := [("operand", id.text), ("got", got)]

/-- A reference to a relation leads to an expression. -/
def expressionReferred (id : NodeId) (got : String) : Failure where
  kind := .plan
  message := "Operand must be a relation"
  fields := [("operand", id.text), ("got", got)]

/-- Whether a reference leads to a node of the sort that its role asks for. -/
def checkReference (arena : Arena) (role : Role) (id : NodeId) : Except Failure Unit := do
  let node ← arena.node id
  match role, node.isExpression with
  | .expression, false => throw (relationReferred id node.name)
  | .input, true | .source, true => throw (expressionReferred id node.name)
  | _, _ => return

/-- There is no expression on either side. -/
def noSide (operator : BinaryOperator) : Failure where
  kind := .plan
  message := "Binary expression needs an expression operand"
  fields := [("op", operator.sign)]

/-- The two sides are evaluated against different relations. -/
def differentSources (operator : BinaryOperator) (left right : NodeId) : Failure where
  kind := .plan
  message := "Binary expression operands have different sources"
  fields := [("op", operator.sign), ("lhs_source", left.text), ("rhs_source", right.text)]

/-- Whether the sides of a binary expression can be evaluated together. -/
def checkSides (arena : Arena) (left right : Side) (operator : BinaryOperator) :
    Except Stop Unit := do
  match ← ([left, right].filterMap Side.expression?).mapM arena.sourceOf with
  | [] => throw (.failed (noSide operator))
  | one :: other :: _ =>
    if one ≠ other then throw (.failed (differentSources operator one other))
  | [_] => return

/-- Whether a node may be added. -/
def check (arena : Arena) (node : Node) : Except Stop Unit := do
  for (role, id) in node.references do
    match arena.checkReference role id with
    | .ok () => pure ()
    | .error failure => throw (.failed (failure.withField "node" node.name))
  match node.content with
  | .expression (.binary left right operator) => arena.checkSides left right operator
  | _ => return

end Arena

/-- A plan together with the node that it is run for. -/
structure RootedPlan where
  arena : Arena
  root : NodeId
deriving DecidableEq, Repr

/-- Work on a growing plan. Where it stops, the nodes that were added before stay. -/
abbrev Building (α : Type) := ExceptT Stop (StateM Arena) α

namespace Building

/-- Adds a node at the end of the plan. -/
def push (node : Node) : Building NodeId := do
  let arena ← get
  arena.check node
  set ({ nodes := arena.nodes ++ [node] } : Arena)
  return ⟨arena.size⟩

/-- Adds an operator. -/
def operator (output : OutputSchema) (operator : Operator) : Building NodeId :=
  push { output, content := .operator operator }

/-- Adds an expression. -/
def expression (output : OutputSchema) (expression : Expression) : Building NodeId :=
  push { output, content := .expression expression }

/-- Adds a copy of a node that produces its output under another description. -/
def withOutput (id : NodeId) (output : OutputSchema) : Building NodeId := do
  let node ← (← get).node id
  push { node with output }

/-- Adds a scan of a table. -/
def tableScan (table : Batch) : Building NodeId :=
  operator (.ofSchema table.schema) (.tableScan table)

/-- Adds a projection. -/
def projection (output : OutputSchema) (source : NodeId) (expressions : List NodeId) :
    Building NodeId :=
  operator output (.projection source expressions)

/-- Adds a filter. Its output has the shape of its source. -/
def filter (source predicate : NodeId) : Building NodeId := do
  operator (← (← get).output source) (.filter source predicate)

/-- Adds a limit on the number of rows. Its output has the shape of its source. -/
def limit (source : NodeId) (count : Nat) : Building NodeId := do
  operator (← (← get).output source) (.limit source count 0)

/-- Adds a join. -/
def join (output : OutputSchema) (left right : NodeId) (kind : JoinKind)
    (conditions : List JoinCondition) : Building NodeId :=
  operator output (.join left right kind conditions)

/-- Adds a reference to a column. Its type is that of the column. -/
def column (source : NodeId) (index : Nat) : Building NodeId := do
  let field ← (← (← get).output source).schema.field index
  expression (.ofField field) (.column source index)

/-- Adds a reference for each of the columns, in order. -/
def columns (source : NodeId) (indices : List Nat) : Building (List NodeId) :=
  indices.mapM (column source)

/-- Adds a projection to some columns. -/
def select (source : NodeId) (indices : List Nat) : Building NodeId := do
  let expressions ← columns source indices
  let schema := (← (← get).output source).schema
  let fields ← (indices.mapM schema.field : Except Failure (List Field))
  projection (.ofSchema { fields }) source expressions

/-- Adds a constant. -/
def constant (output : OutputSchema) (source : NodeId) (value : Scalar) : Building NodeId :=
  expression output (.constant source value)

/-- Adds a null. -/
def null (output : OutputSchema) (source : NodeId) (field : Nat) : Building NodeId :=
  expression output (.null source field)

/-- Adds a unary expression. -/
def unary (output : OutputSchema) (operand : NodeId) (operator : UnaryOperator) :
    Building NodeId :=
  expression output (.unary operand operator)

/-- Adds a binary expression. Its sides have to be over one source. -/
def binary (output : OutputSchema) (left right : Side) (operator : BinaryOperator) :
    Building NodeId :=
  expression output (.binary left right operator)

/-- Adds a call to an aggregate. -/
def aggregate (output : OutputSchema) (source : NodeId) (function : String)
    (columns : List Nat) (skipNulls : Bool) : Building NodeId :=
  expression output (.aggregate source function columns skipNulls)

end Building

end Rankwise

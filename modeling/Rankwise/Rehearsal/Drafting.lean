import Rankwise.Plan.Retarget
import Rankwise.Rehearsal.Request

/-!
# Drafting plans

The steps of a rehearsal in which a plan grows. Most add one node; some may add several.
-/

namespace Rankwise.Rehearsal

open Json (Decoder)

/-- The work of a step that adds a single node, if the step is of such a kind. -/
def nodeStep? (kind : String) (step : Json) : Asked (Option (Building NodeId)) := do
  let output := need OutputSchema.decode step "schema"
  let node := needNode step
  let columns := needList Decoder.size step
  match kind with
  | "frame_read_seq" => return some (.tableScan (← need Batch.decode step "data"))
  | "op" => return some (.operator (← output) (← need Operator.decode step "node"))
  | "expr" => return some (.expression (← output) (← need Expression.decode step "node"))
  | "projection" =>
    return some (.projection (← output) (← node "source") (← needList NodeId.decode step "exprs"))
  | "select_columns" => return some (.select (← node "source") (← columns "columns"))
  | "filter" => return some (.filter (← node "source") (← node "predicate"))
  | "limit" => return some (.limit (← node "source") (← needSize step "limit"))
  | "comparison_join" =>
    return some (.join (← output) (← node "left") (← node "right")
      (← need JoinKind.decode step "join_type") (← needList JoinCondition.decode step "conditions"))
  | "column_ref" => return some (.column (← node "source") (← needSize step "column"))
  | "constant" =>
    return some (.constant (← output) (← node "source") (← need Scalar.decode step "value"))
  | "null" => return some (.null (← output) (← node "source") (← needSize step "field_idx"))
  | "unary" =>
    return some (.unary (← output) (← node "input") (← need UnaryOperator.decode step "operator"))
  | "binary" =>
    return some (.binary (← output) (← need Side.decode step "lhs") (← need Side.decode step "rhs")
      (← need BinaryOperator.decode step "operator"))
  | "aggregate_call" =>
    return some (.aggregate (← output) (← node "source") (← needText step "function")
      (← columns "input_columns") (← need Decoder.boolean step "dropna"))
  | "with_schema" => return some (.withOutput (← node "node") (← output))
  | _ => return none

/-- What a step that may add several nodes gives: the nodes that can be meant later on, and what is
told under a name. -/
structure Drafted where
  name : String
  told : Json
  nodes : List NodeId

/-- What is told of some nodes. -/
def Drafted.ofNodes (name : String) (nodes : List NodeId) : Drafted :=
  { name, told := encodeNodes nodes, nodes }

/-- What is told of a node that may be missing. -/
def Drafted.ofNode (name : String) (node : Option NodeId) : Drafted :=
  { name, told := .ofOption NodeId.encode node, nodes := node.toList }

/-- What is told of two sides that may be missing. -/
def Drafted.ofSides (name : String) (sides : Option (Side × Side)) : Drafted :=
  let sides := sides.map fun (left, right) => [left, right]
  { name, told := .ofOption (fun sides => .array (sides.map Side.encode)) sides
    nodes := (sides.getD []).filterMap Side.expression? }

/-- The work of a step that may add several nodes, if the step is of such a kind. -/
def nodesStep? (kind : String) (step : Json) : Asked (Option (Building Drafted)) := do
  let node := needNode step
  match kind with
  | "make_col_ref_exprs" =>
    let columns := Building.columns (← node "source") (← needList Decoder.size step "keys")
    return some do return .ofNodes "ids" (← columns)
  | "replace_source" =>
    let moved := Building.retarget (← node "expr") (← node "source")
    return some do return .ofNode "replaced" (← moved)
  | "match_binop_sources" =>
    let matched := Building.matchSources (← need Side.decode step "lhs")
      (← need Side.decode step "rhs")
    return some do return .ofSides "matched" (← matched)
  | "update_func_expr_source" =>
    let shifted := Building.shiftFunctions .wraps (← node "expr") (← node "source")
      (← needSize step "offset")
    return some do return .ofNode "updated" (some (← shifted))
  | _ => return none

end Rankwise.Rehearsal

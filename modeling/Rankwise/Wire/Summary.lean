import Rankwise.Json.Writer
import Rankwise.Plan.Engine
import Rankwise.Wire.Plan

/-!
# Nodes as structured values

What is told to programs about the nodes of a plan and about what nodes are built from. Operands and
the arguments of an engine are written alike, as pairs of a kind and a content; they differ in how
they refer to other nodes.
-/

namespace Rankwise

/-- Something of a kind, written with its content. -/
def Json.tagged (kind : String) (content : List Json) : Json := .array (.string kind :: content)

/-- The word for a role. -/
def Role.name : Role → String
  | input => "input"
  | source => "source"
  | expression => "expr"

/-- The word for a kind of binary operator. -/
def BinaryKind.name : BinaryKind → String
  | arithmetic => "Arith"
  | comparison => "Comparison"
  | conjunction => "Conjunction"

namespace Operand

mutual

/-- What a node is built from. -/
def encode (names : LazyNames) : Operand → Json
  | input id => .tagged "input" [id.encode]
  | source id => .tagged "source" [id.encode]
  | expression id => .tagged "expr" [id.encode]
  | list items => .tagged "list" [.array (encodeItems names items)]
  | scalar value => .tagged "scalar" [value.encode]
  | text content => .tagged "text" [.string content]
  | index value => .tagged "index" [.natural value]
  | indices values => .tagged "indices" [encodeColumns values]
  | boolean value => .tagged "bool" [.boolean value]
  | options entries => .tagged "options" [encodeOptions entries]
  | table batch => .tagged "data" [batch.encode]
  | lazyTable found =>
    .tagged "distributed" [.ofOption ResultId.encode (found.resultId? names)]
  | absent => .tagged "absent" []

/-- What the items of a list are. -/
def encodeItems (names : LazyNames) : List Operand → List Json
  | [] => []
  | item :: rest => encode names item :: encodeItems names rest

end

end Operand

namespace EngineArgument

mutual

/-- What an engine builds a node from, with handles that are numbers. -/
def encode : EngineArgument Nat → Json
  | owned handle => .tagged "owned" [.natural handle]
  | borrowed handle => .tagged "borrowed" [.natural handle]
  | list items => .tagged "list" [.array (encodeItems items)]
  | scalar value => .tagged "scalar" [value.encode]
  | text content => .tagged "text" [.string content]
  | index value => .tagged "index" [.natural value]
  | indices values => .tagged "indices" [encodeColumns values]
  | boolean value => .tagged "bool" [.boolean value]
  | options entries => .tagged "options" [encodeOptions entries]
  | table batch => .tagged "data" [batch.encode]
  | absent => .tagged "absent" [.null]

/-- What the items of a list are. -/
def encodeItems : List (EngineArgument Nat) → List Json
  | [] => []
  | item :: rest => encode item :: encodeItems rest

end

end EngineArgument

namespace Arena

/-- What is known about an operator or an expression only. -/
def contentSummary : Node.Content → List (String × Json)
  | .operator operator =>
    [("inputs", encodeNodes operator.inputs), ("exprs", encodeNodes operator.expressions),
      ("binary_relation", .boolean operator.combinesTwo)]
  | .expression expression =>
    [("direct_source", .ofOption NodeId.encode expression.source?),
      ("children", encodeNodes expression.parts)]

/-- What is known about a node. -/
def summary (arena : Arena) (names : LazyNames) (id : NodeId) : Except Failure Json := do
  let node ← arena.node id
  return .object ([
    ("id", .string id.text), ("name", .string node.name), ("schema", .string node.output.text),
    ("columns", .natural node.output.schema.size),
    ("single_column", .boolean node.output.isSingleColumn),
    ("is_expression", .boolean node.isExpression),
    ("operands", .array (node.operands.map (Operand.encode names))),
    ("refs", .array (node.references.map fun (role, target) =>
      .tagged role.name [target.encode])),
    ("json", .string (((node.encode? names).map Json.text).getD "unserializable"))]
    ++ contentSummary node.content)

end Arena

end Rankwise

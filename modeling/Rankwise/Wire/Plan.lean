import Rankwise.Plan.Explain
import Rankwise.Wire.Value

/-!
# Plans as structured values

How plans are written and read. A table on the workers is written as the name of its result, so a
plan can be written only when the names of all its tables are known. A plan that is read has names
for all of them; its references are not checked.
-/

namespace Rankwise

open Json (Decoder Choice Record)

namespace NodeId

def encode (id : NodeId) : Json := .natural id.index

def decode : Decoder NodeId := Decoder.size.andThen fun index => some ⟨index⟩

end NodeId

namespace LazyTable

/-- Writes the name of the table, if it is known. -/
def encode? (names : LazyNames) (table : LazyTable) : Option Json :=
  (table.resultId? names).map ResultId.encode

def decode : Decoder LazyTable := ResultId.decode.andThen fun id => some (stored id)

end LazyTable

namespace OutputSchema

def encode (output : OutputSchema) : Json :=
  .object [("schema", output.schema.encode),
    ("kind", .string (match output.kind with
      | .frame => "Frame"
      | .singleColumn => "SingleColumn"))]

def decode : Decoder OutputSchema := fun room written => do
  let record ← Record.open? ["schema", "kind"] room written
  return {
    schema := ← record.field "schema" Schema.decode
    kind := ← record.field "kind"
      (Decoder.oneOf [("Frame", .frame), ("SingleColumn", .singleColumn)]) }

end OutputSchema

namespace UnaryOperator

def encode : UnaryOperator → Json
  | negate => .string "Negate"
  | not => .string "Not"
  | isNull => .string "IsNull"
  | isNotNull => .string "IsNotNull"

def decode : Decoder UnaryOperator :=
  Decoder.oneOf [("Negate", negate), ("Not", not), ("IsNull", isNull), ("IsNotNull", isNotNull)]

end UnaryOperator

namespace BinaryOperator

/-- The name by which the operation is written. -/
def written : BinaryOperator → String
  | add => "Add"
  | subtract => "Sub"
  | multiply => "Mul"
  | divide => "Div"
  | floorDivide => "FloorDiv"
  | modulo => "Mod"
  | equal => "Eq"
  | notEqual => "NotEq"
  | less => "Lt"
  | lessOrEqual => "LtEq"
  | greater => "Gt"
  | greaterOrEqual => "GtEq"
  | and => "And"
  | or => "Or"

def encode (operator : BinaryOperator) : Json := .string operator.written

def decode : Decoder BinaryOperator :=
  Decoder.oneOf <|
    [add, subtract, multiply, divide, floorDivide, modulo, equal, notEqual, less, lessOrEqual,
      greater, greaterOrEqual, and, or].map fun operator => (operator.written, operator)

end BinaryOperator

namespace Side

def encode : Side → Json
  | expression id => .choice "Expr" id.encode
  | scalar value => .choice "Scalar" value.encode

def decode : Decoder Side := fun room written => do
  let choice ← Choice.open? room written
  match choice.name with
  | "Expr" => choice.carrying (NodeId.decode.andThen fun id => some (expression id))
  | "Scalar" => choice.carrying (Scalar.decode.andThen fun value => some (scalar value))
  | _ => none

end Side

/-- Writes the places of columns. -/
def encodeColumns (columns : List Nat) : Json := .array (columns.map Json.natural)

/-- Reads the places of columns. -/
def decodeColumns : Decoder (List Nat) := Decoder.size.list

/-- Writes the names of nodes. -/
def encodeNodes (ids : List NodeId) : Json := .array (ids.map NodeId.encode)

/-- Writes options under their names. -/
def encodeOptions (options : Named String) : Json := Named.encode .string options

/-- Reads options under their names. -/
def decodeOptions : Decoder (Named String) := Decoder.named Decoder.string

namespace Expression

def encode : Expression → Json
  | column source index =>
    .choice "Column" (.object [("source", source.encode), ("column", .natural index)])
  | constant source value =>
    .choice "Constant" (.object [("source", source.encode), ("value", value.encode)])
  | null source field =>
    .choice "Null" (.object [("source", source.encode), ("field_idx", .natural field)])
  | unary operand operator =>
    .choice "Unary" (.object [("input", operand.encode), ("op", operator.encode)])
  | binary left right operator =>
    .choice "Binary"
      (.object [("lhs", left.encode), ("rhs", right.encode), ("op", operator.encode)])
  | aggregate source function columns skipNulls =>
    .choice "Aggregate" (.object [("source", source.encode), ("function", .string function),
      ("input_columns", encodeColumns columns), ("dropna", .boolean skipNulls)])
  | rowFunction call =>
    .choice "ScalarFunction" (.object [("source", call.source.encode),
      ("function", .string call.function), ("args", .array (call.arguments.map Scalar.encode)),
      ("input_columns", encodeColumns call.columns), ("is_native", .boolean call.isNative),
      ("has_state", .boolean call.hasState)])

/-- Reads the payload of an expression of the given name. -/
def decodePayload (name : String) : Decoder Expression := fun room written =>
  match name with
  | "Column" => do
    let record ← Record.open? ["source", "column"] room written
    return column (← record.field "source" NodeId.decode) (← record.field "column" Decoder.size)
  | "Constant" => do
    let record ← Record.open? ["source", "value"] room written
    return constant (← record.field "source" NodeId.decode) (← record.field "value" Scalar.decode)
  | "Null" => do
    let record ← Record.open? ["source", "field_idx"] room written
    return null (← record.field "source" NodeId.decode) (← record.field "field_idx" Decoder.size)
  | "Unary" => do
    let record ← Record.open? ["input", "op"] room written
    return unary (← record.field "input" NodeId.decode) (← record.field "op" UnaryOperator.decode)
  | "Binary" => do
    let record ← Record.open? ["lhs", "rhs", "op"] room written
    return binary (← record.field "lhs" Side.decode) (← record.field "rhs" Side.decode)
      (← record.field "op" BinaryOperator.decode)
  | "Aggregate" => do
    let record ← Record.open? ["source", "function", "input_columns", "dropna"] room written
    return aggregate (← record.field "source" NodeId.decode)
      (← record.field "function" Decoder.string) (← record.field "input_columns" decodeColumns)
      (← record.field "dropna" Decoder.boolean)
  | "ScalarFunction" => do
    let record ← Record.open?
      ["source", "function", "args", "input_columns", "is_native", "has_state"] room written
    return rowFunction {
      source := ← record.field "source" NodeId.decode
      function := ← record.field "function" Decoder.string
      arguments := ← record.field "args" Scalar.decode.list
      columns := ← record.field "input_columns" decodeColumns
      isNative := ← record.field "is_native" Decoder.boolean
      hasState := ← record.field "has_state" Decoder.boolean }
  | _ => none

def decode : Decoder Expression := fun room written => do
  let choice ← Choice.open? room written
  choice.carrying (decodePayload choice.name)

end Expression

namespace JoinKind

def encode : JoinKind → Json
  | inner => .string "Inner"
  | left => .string "Left"
  | right => .string "Right"
  | full => .string "Full"
  | leftSemi => .string "LeftSemi"
  | leftAnti => .string "LeftAnti"
  | cross => .string "Cross"

def decode : Decoder JoinKind :=
  Decoder.oneOf [("Inner", inner), ("Left", left), ("Right", right), ("Full", full),
    ("LeftSemi", leftSemi), ("LeftAnti", leftAnti), ("Cross", cross)]

end JoinKind

namespace Comparison

def encode : Comparison → Json
  | equal => .string "Eq"
  | notEqual => .string "NotEq"
  | less => .string "Lt"
  | lessOrEqual => .string "LtEq"
  | greater => .string "Gt"
  | greaterOrEqual => .string "GtEq"

def decode : Decoder Comparison :=
  Decoder.oneOf [("Eq", equal), ("NotEq", notEqual), ("Lt", less), ("LtEq", lessOrEqual),
    ("Gt", greater), ("GtEq", greaterOrEqual)]

end Comparison

namespace JoinCondition

def encode (condition : JoinCondition) : Json :=
  .object [("left", .natural condition.left), ("right", .natural condition.right),
    ("op", condition.comparison.encode)]

def decode : Decoder JoinCondition := fun room written => do
  let record ← Record.open? ["left", "right", "op"] room written
  return {
    left := ← record.field "left" Decoder.size
    right := ← record.field "right" Decoder.size
    comparison := ← record.field "op" Comparison.decode }

end JoinCondition

namespace SetKind

def encode : SetKind → Json
  | union => .string "Union"
  | unionAll => .string "UnionAll"
  | intersect => .string "Intersect"
  | except => .string "Except"

def decode : Decoder SetKind :=
  Decoder.oneOf [("Union", union), ("UnionAll", unionAll), ("Intersect", intersect),
    ("Except", except)]

end SetKind

namespace SortKey

def encode (key : SortKey) : Json :=
  .object [("column", .natural key.column), ("ascending", .boolean key.ascending),
    ("nulls_first", .boolean key.nullsFirst)]

def decode : Decoder SortKey := fun room written => do
  let record ← Record.open? ["column", "ascending", "nulls_first"] room written
  return {
    column := ← record.field "column" Decoder.size
    ascending := ← record.field "ascending" Decoder.boolean
    nullsFirst := ← record.field "nulls_first" Decoder.boolean }

end SortKey

namespace CatalogScan

def encode (scan : CatalogScan) : Json :=
  .object [("table_identifier", .string scan.table), ("catalog_name", .string scan.catalog),
    ("catalog_properties", encodeOptions scan.properties),
    ("row_filter", .ofOption .string scan.rowFilter),
    ("snapshot_id", .ofOption .natural scan.snapshot),
    ("table_len_estimate", .natural scan.estimatedRows)]

def decode : Decoder CatalogScan := fun room written => do
  let record ← Record.open? ["table_identifier", "catalog_name", "catalog_properties",
    "row_filter", "snapshot_id", "table_len_estimate"] room written
  return {
    table := ← record.field "table_identifier" Decoder.string
    catalog := ← record.field "catalog_name" Decoder.string
    properties := ← record.field "catalog_properties" decodeOptions
    rowFilter := ← record.field? "row_filter" Decoder.string
    snapshot := ← record.field? "snapshot_id" Decoder.size
    estimatedRows := ← record.field "table_len_estimate" Decoder.size }

end CatalogScan

namespace Operator

/-- Writes an operator, if the name of the table that it scans is known. -/
def encode? (names : LazyNames) : Operator → Option Json
  | projection source expressions =>
    some (.choice "Projection"
      (.object [("source", source.encode), ("exprs", encodeNodes expressions)]))
  | filter source predicate =>
    some (.choice "Filter"
      (.object [("source", source.encode), ("predicate", predicate.encode)]))
  | aggregate source keys aggregates =>
    some (.choice "Aggregate" (.object [("source", source.encode), ("keys", encodeColumns keys),
      ("aggregates", encodeNodes aggregates)]))
  | distinct source expressions =>
    some (.choice "Distinct"
      (.object [("source", source.encode), ("exprs", encodeNodes expressions)]))
  | join left right kind conditions =>
    some (.choice "ComparisonJoin" (.object [("left", left.encode), ("right", right.encode),
      ("join_type", kind.encode),
      ("conditions", .array (conditions.map JoinCondition.encode))]))
  | setOperation left right kind =>
    some (.choice "SetOperation"
      (.object [("left", left.encode), ("right", right.encode), ("kind", kind.encode)]))
  | limit source count offset =>
    some (.choice "Limit" (.object [("source", source.encode), ("limit", .natural count),
      ("offset", .natural offset)]))
  | order source keys =>
    some (.choice "Order"
      (.object [("source", source.encode), ("keys", .array (keys.map SortKey.encode))]))
  | parquetScan path options =>
    some (.choice "ParquetRead"
      (.object [("path", .string path), ("storage_options", encodeOptions options)]))
  | tableScan table => some (.choice "FrameReadSeq" (.object [("data", table.encode)]))
  | partitionScan table rows => do
    some (.choice "FrameReadParallel"
      (.object [("arg", ← table.encode? names), ("num_rows", .natural rows)]))
  | catalogScan scan => some (.choice "IcebergRead" scan.encode)
  | parquetSink source path compression rowGroupSize =>
    some (.choice "ParquetWrite" (.object [("source", source.encode), ("path", .string path),
      ("compression", .string compression), ("row_group_size", .natural rowGroupSize)]))
  | catalogSink source location properties =>
    some (.choice "IcebergWrite" (.object [("source", source.encode),
      ("table_location", .string location), ("properties", encodeOptions properties)]))
  | vectorSink source bucket index region =>
    some (.choice "VectorStoreWrite" (.object [("source", source.encode),
      ("bucket", .string bucket), ("index", .string index),
      ("region", .ofOption .string region)]))

/-- Reads the payload of an operator of the given name. -/
def decodePayload (name : String) : Decoder Operator := fun room written =>
  match name with
  | "Projection" => do
    let record ← Record.open? ["source", "exprs"] room written
    return projection (← record.field "source" NodeId.decode)
      (← record.field "exprs" NodeId.decode.list)
  | "Filter" => do
    let record ← Record.open? ["source", "predicate"] room written
    return filter (← record.field "source" NodeId.decode)
      (← record.field "predicate" NodeId.decode)
  | "Aggregate" => do
    let record ← Record.open? ["source", "keys", "aggregates"] room written
    return aggregate (← record.field "source" NodeId.decode) (← record.field "keys" decodeColumns)
      (← record.field "aggregates" NodeId.decode.list)
  | "Distinct" => do
    let record ← Record.open? ["source", "exprs"] room written
    return distinct (← record.field "source" NodeId.decode)
      (← record.field "exprs" NodeId.decode.list)
  | "ComparisonJoin" => do
    let record ← Record.open? ["left", "right", "join_type", "conditions"] room written
    return join (← record.field "left" NodeId.decode) (← record.field "right" NodeId.decode)
      (← record.field "join_type" JoinKind.decode)
      (← record.field "conditions" JoinCondition.decode.list)
  | "SetOperation" => do
    let record ← Record.open? ["left", "right", "kind"] room written
    return setOperation (← record.field "left" NodeId.decode)
      (← record.field "right" NodeId.decode) (← record.field "kind" SetKind.decode)
  | "Limit" => do
    let record ← Record.open? ["source", "limit", "offset"] room written
    return limit (← record.field "source" NodeId.decode) (← record.field "limit" Decoder.size)
      (← record.field "offset" Decoder.size)
  | "Order" => do
    let record ← Record.open? ["source", "keys"] room written
    return order (← record.field "source" NodeId.decode) (← record.field "keys" SortKey.decode.list)
  | "ParquetRead" => do
    let record ← Record.open? ["path", "storage_options"] room written
    return parquetScan (← record.field "path" Decoder.string)
      (← record.field "storage_options" decodeOptions)
  | "FrameReadSeq" => do
    let record ← Record.open? ["data"] room written
    return tableScan (← record.field "data" Batch.decode)
  | "FrameReadParallel" => do
    let record ← Record.open? ["arg", "num_rows"] room written
    return partitionScan (← record.field "arg" LazyTable.decode)
      (← record.field "num_rows" Decoder.size)
  | "IcebergRead" => (CatalogScan.decode room written).map catalogScan
  | "ParquetWrite" => do
    let record ← Record.open? ["source", "path", "compression", "row_group_size"] room written
    return parquetSink (← record.field "source" NodeId.decode)
      (← record.field "path" Decoder.string) (← record.field "compression" Decoder.string)
      (← record.field "row_group_size" Decoder.size)
  | "IcebergWrite" => do
    let record ← Record.open? ["source", "table_location", "properties"] room written
    return catalogSink (← record.field "source" NodeId.decode)
      (← record.field "table_location" Decoder.string) (← record.field "properties" decodeOptions)
  | "VectorStoreWrite" => do
    let record ← Record.open? ["source", "bucket", "index", "region"] room written
    return vectorSink (← record.field "source" NodeId.decode)
      (← record.field "bucket" Decoder.string) (← record.field "index" Decoder.string)
      (← record.field? "region" Decoder.string)
  | _ => none

def decode : Decoder Operator := fun room written => do
  let choice ← Choice.open? room written
  choice.carrying (decodePayload choice.name)

end Operator

namespace Node

/-- Writes a node, if the name of the table that it scans is known. -/
def encode? (names : LazyNames) (node : Node) : Option Json := do
  let content ← match node.content with
    | .operator operator => (operator.encode? names).map (Json.choice "Operator")
    | .expression expression => some (.choice "Expression" expression.encode)
  some (.object [("schema", node.output.encode), ("kind", content)])

/-- Reads what a node computes. -/
def decodeContent : Decoder Content := fun room written => do
  let choice ← Choice.open? room written
  match choice.name with
  | "Operator" => choice.carrying (Operator.decode.andThen fun found => some (.operator found))
  | "Expression" =>
    choice.carrying (Expression.decode.andThen fun found => some (.expression found))
  | _ => none

def decode : Decoder Node := fun room written => do
  let record ← Record.open? ["schema", "kind"] room written
  return {
    output := ← record.field "schema" OutputSchema.decode
    content := ← record.field "kind" decodeContent }

end Node

namespace Arena

/-- Writes a plan, if the names of all tables that it scans are known. -/
def encode? (names : LazyNames) (arena : Arena) : Option Json := do
  some (.object [("nodes", .array (← arena.nodes.mapM (Node.encode? names)))])

def decode : Decoder Arena := fun room written => do
  let record ← Record.open? ["nodes"] room written
  return { nodes := ← record.field "nodes" Node.decode.list }

end Arena

namespace RootedPlan

/-- Writes a plan and its root, if the names of all tables that it scans are known. -/
def encode? (names : LazyNames) (plan : RootedPlan) : Option Json := do
  some (.object [("arena", ← plan.arena.encode? names), ("root", plan.root.encode)])

def decode : Decoder RootedPlan := fun room written => do
  let record ← Record.open? ["arena", "root"] room written
  return {
    arena := ← record.field "arena" Arena.decode
    root := ← record.field "root" NodeId.decode }

end RootedPlan

namespace Entry

def encode (entry : Entry) : Json :=
  .object [("name", .string entry.name),
    ("items", Named.encode (fun
      | .one text => .choice "Value" (.string text)
      | .many texts => .choice "Values" (.strings texts)) entry.items)]

end Entry

end Rankwise

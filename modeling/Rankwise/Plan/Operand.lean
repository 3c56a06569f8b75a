import Rankwise.Plan.Operator

/-!
# Operands

What a node is built from, in the order in which the engine takes it. References to other nodes come
in three roles: a relation that the node takes over, a relation that an expression is evaluated
against, and an expression.
-/

namespace Rankwise

/-- Something that a node is built from. -/
inductive Operand where
  /-- A relation that the node takes over. -/
  | input (id : NodeId)
  /-- A relation that the node is evaluated against and leaves alone. -/
  | source (id : NodeId)
  | expression (id : NodeId)
  | list (items : List Operand)
  | scalar (value : Scalar)
  | text (content : String)
  | index (value : Nat)
  | indices (values : List Nat)
  | boolean (value : Bool)
  | options (entries : List (String × String))
  | table (batch : Batch)
  | lazyTable (table : LazyTable)
  | absent
deriving Repr

/-- In which role an operand refers to a node. -/
inductive Role where
  | input
  | source
  | expression
deriving DecidableEq, Repr

namespace Operand

mutual

/-- The nodes that an operand refers to, each with its role, in order. -/
def references : Operand → List (Role × NodeId)
  | input id => [(.input, id)]
  | source id => [(.source, id)]
  | expression id => [(.expression, id)]
  | list items => referencesOf items
  | _ => []

/-- The nodes that some operands refer to. -/
def referencesOf : List Operand → List (Role × NodeId)
  | [] => []
  | item :: rest => references item ++ referencesOf rest

end

/-- The expressions as one operand. -/
def expressions (ids : List NodeId) : Operand := list (ids.map expression)

/-- A text, or its absence. -/
def optionalText : Option String → Operand
  | some content => text content
  | none => absent

/-- One side of a binary expression. -/
def ofSide : Side → Operand
  | .expression id => expression id
  | .scalar value => scalar value

end Operand

/-- What the condition is built from. -/
def JoinCondition.operand (condition : JoinCondition) : Operand :=
  .list [.index condition.left, .index condition.right, .text condition.comparison.sign]

/-- What the sort key is built from. -/
def SortKey.operand (key : SortKey) : Operand :=
  .list [.index key.column, .boolean key.ascending, .boolean key.nullsFirst]

/-- What the expression is built from. -/
def Expression.operands : Expression → List Operand
  | column source index => [.source source, .index index]
  | constant _ value => [.scalar value]
  | null _ field => [.index field]
  | unary operand operator => [.expression operand, .text operator.name]
  | binary left right operator => [.ofSide left, .ofSide right, .text operator.sign]
  | aggregate source function columns skipNulls =>
    [.source source, .text function, .indices columns, .boolean skipNulls]
  | rowFunction call =>
    [.source call.source, .text call.function, .list (call.arguments.map Operand.scalar),
      .indices call.columns, .boolean call.isNative, .boolean call.hasState]

/-- What the operator is built from. Relations come first. -/
def Operator.operands : Operator → List Operand
  | projection source expressions => [.input source, .expressions expressions]
  | filter source predicate => [.input source, .expression predicate]
  | aggregate source keys aggregates => [.input source, .indices keys, .expressions aggregates]
  | distinct source expressions => [.input source, .expressions expressions]
  | join left right kind conditions =>
    [.input left, .input right, .text kind.text, .list (conditions.map JoinCondition.operand)]
  | setOperation left right kind => [.input left, .input right, .text kind.text]
  | limit source count offset => [.input source, .index count, .index offset]
  | order source keys => [.input source, .list (keys.map SortKey.operand)]
  | parquetScan path options => [.text path, .options options]
  | tableScan batch => [.table batch]
  | partitionScan table rows => [.lazyTable table, .index rows]
  | catalogScan scan =>
    [.text scan.table, .text scan.catalog, .options scan.properties,
      .optionalText scan.rowFilter, (scan.snapshot.map Operand.index).getD .absent,
      .index scan.estimatedRows]
  | parquetSink source path compression rowGroupSize =>
    [.input source, .text path, .text compression, .index rowGroupSize]
  | catalogSink source location properties =>
    [.input source, .text location, .options properties]
  | vectorSink source bucket index region =>
    [.input source, .text bucket, .text index, .optionalText region]

end Rankwise

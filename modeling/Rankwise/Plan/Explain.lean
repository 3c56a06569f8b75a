import Rankwise.Plan.Arena

/-!
# Plans as people see them

A plan is shown as a tree with one line per operator, each level two blanks further in. A line gives
the name of the operator and, in order of their names, the facts that matter; expressions stand
within the line in short form. Showing a plan may fail, since a plan that was read from a text can
refer to nodes that are not there.
-/

namespace Rankwise

/-- What an entry says about one thing. -/
inductive Entry.Value where
  | one (text : String)
  | many (texts : List String)
deriving DecidableEq, Repr

/-- The value as people see it. -/
def Entry.Value.text : Entry.Value → String
  | one text => text
  | many texts => "[" ++ ", ".intercalate texts ++ "]"

/-- One line about a node. -/
structure Entry where
  name : String
  items : Named Entry.Value := []
deriving DecidableEq, Repr

namespace Entry

/-- Says something about a thing, in place of what was said about it before. -/
def withValue (entry : Entry) (key text : String) : Entry :=
  { entry with items := Named.insert key (.one text) entry.items }

/-- Says something about a thing, if there is anything to say. -/
def withOptional (entry : Entry) (key : String) (text : Option String) : Entry :=
  text.elim entry (entry.withValue key)

/-- Lists several values of a thing, in place of what was said about it before. -/
def withValues (entry : Entry) (key : String) (texts : List String) : Entry :=
  { entry with items := Named.insert key (.many texts) entry.items }

/-- The line as people see it. -/
def text (entry : Entry) : String :=
  match entry.items with
  | [] => entry.name
  | items =>
    let shown := items.map fun (key, value) => key ++ " = " ++ value.text
    entry.name ++ " (" ++ ", ".intercalate shown ++ ")"

end Entry

namespace Arena

/-- The short form of one side of a binary expression. -/
def sideText (expressionText : NodeId → Except Stop String) : Side → Except Stop String
  | .expression id => expressionText id
  | .scalar value => .ok value.text

/-- The short form of an expression, following its parts no deeper than the limit. -/
def expressionTextWithin (arena : Arena) : Nat → NodeId → Except Stop String
  | 0, _ => .error .unending
  | limit + 1, id => do
    match ← arena.expression id with
    | .column _ index => return columnText index
    | .constant _ value => return value.text
    | .null _ _ => return "NULL"
    | .unary operand operator =>
      return operator.text (← arena.expressionTextWithin limit operand)
    | .binary left right operator =>
      let left ← sideText (arena.expressionTextWithin limit) left
      let right ← sideText (arena.expressionTextWithin limit) right
      return "(" ++ left ++ " " ++ operator.sign ++ " " ++ right ++ ")"
    | .aggregate _ function columns _ => return function ++ "(" ++ columnsText columns ++ ")"
    | .rowFunction call => return call.function ++ "(" ++ columnsText call.columns ++ ")"

/-- The short form of an expression. -/
def expressionText (arena : Arena) (id : NodeId) : Except Stop String :=
  arena.expressionTextWithin arena.walkLimit id

/-- The line about an operator. -/
def operatorEntry (arena : Arena) (names : LazyNames) (operator : Operator) :
    Except Stop Entry := do
  let entry : Entry := { name := operator.name }
  match operator with
  | .projection _ expressions =>
    return entry.withValues "exprs" (← expressions.mapM arena.expressionText)
  | .filter _ predicate => return entry.withValue "predicate" (← arena.expressionText predicate)
  | .aggregate _ keys aggregates =>
    return (entry.withValue "keys" (columnsText keys)).withValues "aggregates"
      (← aggregates.mapM arena.expressionText)
  | .distinct _ expressions =>
    return entry.withValues "exprs" (← expressions.mapM arena.expressionText)
  | .join _ _ kind conditions =>
    return (entry.withValue "join_type" kind.text).withValues "conditions"
      (conditions.map JoinCondition.text)
  | .setOperation _ _ kind => return entry.withValue "kind" kind.text
  | .limit _ count offset =>
    return (entry.withValue "limit" (toString count)).withValue "offset" (toString offset)
  | .order _ keys => return entry.withValues "keys" (keys.map SortKey.text)
  | .parquetScan path _ => return entry.withValue "path" path
  | .tableScan table => return entry.withValue "num_rows" (toString table.rows)
  | .partitionScan table rows =>
    return (entry.withValue "num_rows" (toString rows)).withOptional "result_id"
      ((table.resultId? names).map ResultId.text)
  | .catalogScan scan =>
    return (((entry.withValue "table" scan.table).withValue "catalog" scan.catalog).withOptional
      "row_filter" scan.rowFilter).withOptional "snapshot_id" (scan.snapshot.map toString)
  | .parquetSink _ path compression _ =>
    return (entry.withValue "path" path).withValue "compression" compression
  | .catalogSink _ location _ => return entry.withValue "table_location" location
  | .vectorSink _ bucket index region =>
    return ((entry.withValue "bucket" bucket).withValue "index" index).withOptional "region" region

/-- The line about a node, and the nodes whose lines stand below it. An expression stands above its
source. -/
def line (arena : Arena) (names : LazyNames) (id : NodeId) : Except Stop (Entry × List NodeId) := do
  if arena.isExpression id then
    let expression ← arena.expression id
    let entry : Entry := { name := expression.name }
    return (entry.withValue "expr" (← arena.expressionText id), [← arena.sourceOf id])
  else
    let operator ← arena.operator id
    return (← arena.operatorEntry names operator, operator.inputs)

/-- The lines of the tree below a node, following references no deeper than the limit. -/
def linesWithin (arena : Arena) (names : LazyNames) :
    Nat → Nat → NodeId → Except Stop (List String)
  | 0, _, _ => .error .unending
  | limit + 1, indent, id => do
    let (entry, below) ← arena.line names id
    let rest ← below.mapM (arena.linesWithin names limit (indent + 1))
    return (String.join (List.replicate indent "  ") ++ entry.text ++ "\n") :: rest.flatten

/-- The tree below a node, one line per operator. -/
def display (arena : Arena) (names : LazyNames) (root : NodeId) : Except Stop String := do
  return String.join (← arena.linesWithin names arena.walkLimit 0 root)

end Arena

end Rankwise

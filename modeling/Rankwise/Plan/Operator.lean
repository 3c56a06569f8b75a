import Rankwise.Group.LazyTable
import Rankwise.Plan.Expression

/-!
# Operators

An operator computes a relation out of at most two others and out of expressions over them. Scans
have no relation below them, sinks write theirs to the outside.
-/

namespace Rankwise

/-- Which rows a join keeps. -/
inductive JoinKind where
  | inner
  | left
  | right
  | full
  | leftSemi
  | leftAnti
  | cross
deriving DecidableEq, Repr

/-- The word for the kind of join. -/
def JoinKind.text : JoinKind → String
  | inner => "INNER"
  | left => "LEFT"
  | right => "RIGHT"
  | full => "FULL"
  | leftSemi => "SEMI"
  | leftAnti => "ANTI"
  | cross => "CROSS"

/-- How two columns are compared by a join. -/
inductive Comparison where
  | equal
  | notEqual
  | less
  | lessOrEqual
  | greater
  | greaterOrEqual
deriving DecidableEq, Repr

/-- The sign of the comparison. -/
def Comparison.sign : Comparison → String
  | equal => "="
  | notEqual => "!="
  | less => "<"
  | lessOrEqual => "<="
  | greater => ">"
  | greaterOrEqual => ">="

/-- Compares a column of the left relation with one of the right relation. -/
structure JoinCondition where
  left : Nat
  right : Nat
  comparison : Comparison := .equal
deriving DecidableEq, Repr

/-- The column at a place as people see it. -/
def columnText (index : Nat) : String := "#" ++ toString index

/-- The columns at several places as people see them. -/
def columnsText (indices : List Nat) : String := ", ".intercalate (indices.map columnText)

/-- The condition as people see it. -/
def JoinCondition.text (condition : JoinCondition) : String :=
  columnText condition.left ++ " " ++ condition.comparison.sign ++ " " ++
    columnText condition.right

/-- How two relations of one shape are combined. -/
inductive SetKind where
  | union
  | unionAll
  | intersect
  | except
deriving DecidableEq, Repr

/-- The words for the combination. -/
def SetKind.text : SetKind → String
  | union => "UNION"
  | unionAll => "UNION ALL"
  | intersect => "INTERSECT"
  | except => "EXCEPT"

/-- A column to sort by. -/
structure SortKey where
  column : Nat
  ascending : Bool := true
  nullsFirst : Bool := false
deriving DecidableEq, Repr

/-- The sort key as people see it. -/
def SortKey.text (key : SortKey) : String :=
  columnText key.column ++ (if key.ascending then " ASC" else " DESC")
    ++ (if key.nullsFirst then " NULLS FIRST" else " NULLS LAST")

/-- A table of a catalog that is read in place. -/
structure CatalogScan where
  table : String
  catalog : String
  properties : Named String
  /-- A condition on the rows, in the words of the catalog. -/
  rowFilter : Option String
  snapshot : Option Nat
  /-- How many rows there may be. This is no known number. -/
  estimatedRows : Nat
deriving DecidableEq, Repr

/-- An operator. -/
inductive Operator where
  /-- One output column per expression. -/
  | projection (source : NodeId) (expressions : List NodeId)
  /-- The rows for which the predicate is true. -/
  | filter (source predicate : NodeId)
  /-- One row for each group of rows that agree on the keys. -/
  | aggregate (source : NodeId) (keys : List Nat) (aggregates : List NodeId)
  /-- One row for each combination of values of the expressions. -/
  | distinct (source : NodeId) (expressions : List NodeId)
  | join (left right : NodeId) (kind : JoinKind) (conditions : List JoinCondition)
  | setOperation (left right : NodeId) (kind : SetKind)
  /-- At most `count` rows, after the first `offset` ones. -/
  | limit (source : NodeId) (count offset : Nat)
  | order (source : NodeId) (keys : List SortKey)
  | parquetScan (path : String) (options : List (String × String))
  /-- A table that the plan itself holds. -/
  | tableScan (table : Batch)
  /-- A table that lies, or will lie, in partitions on the workers. -/
  | partitionScan (table : LazyTable) (rows : Nat)
  | catalogScan (scan : CatalogScan)
  | parquetSink (source : NodeId) (path compression : String) (rowGroupSize : Nat)
  | catalogSink (source : NodeId) (location : String) (properties : List (String × String))
  | vectorSink (source : NodeId) (bucket index : String) (region : Option String)
deriving DecidableEq, Repr

namespace Operator

/-- The name by which the engine knows this kind of operator. -/
def name : Operator → String
  | projection _ _ => "LogicalProjection"
  | filter _ _ => "LogicalFilter"
  | aggregate _ _ _ => "LogicalAggregate"
  | distinct _ _ => "LogicalDistinct"
  | join _ _ _ _ => "LogicalComparisonJoin"
  | setOperation _ _ _ => "LogicalSetOperation"
  | limit _ _ _ => "LogicalLimit"
  | order _ _ => "LogicalOrder"
  | parquetScan _ _ => "LogicalGetParquetRead"
  | tableScan _ => "LogicalGetFrameReadSeq"
  | partitionScan _ _ => "LogicalGetFrameReadParallel"
  | catalogScan _ => "LogicalGetIcebergRead"
  | parquetSink _ _ _ _ => "LogicalParquetWrite"
  | catalogSink _ _ _ => "LogicalIcebergWrite"
  | vectorSink _ _ _ _ => "LogicalVectorStoreWrite"

/-- Whether the operator combines two relations, which may be one and the same. -/
def combinesTwo : Operator → Bool
  | join _ _ _ _ | setOperation _ _ _ => true
  | _ => false

/-- The relations below the operator, in order. -/
def inputs : Operator → List NodeId
  | projection source _ | filter source _ | aggregate source _ _ | distinct source _
  | limit source _ _ | order source _ | parquetSink source _ _ _ | catalogSink source _ _
  | vectorSink source _ _ _ => [source]
  | join left right _ _ | setOperation left right _ => [left, right]
  | parquetScan _ _ | tableScan _ | partitionScan _ _ | catalogScan _ => []

/-- The expressions that the operator holds, in order. -/
def expressions : Operator → List NodeId
  | projection _ expressions | distinct _ expressions => expressions
  | filter _ predicate => [predicate]
  | aggregate _ _ aggregates => aggregates
  | _ => []

end Operator

end Rankwise

import Rankwise.Plan.Arena

/-!
# Numbers of rows

For some plans the number of rows is known without running them: it is that of a scan, kept by
sorting and by projections and cut by limits. For the others there is a plan that counts.
-/

namespace Rankwise

namespace Arena

/-- Whether there is a call to an aggregate among the expressions. Nothing is asked behind the first
one. -/
def anyAggregate (arena : Arena) : List NodeId → Except Failure Bool
  | [] => .ok false
  | id :: rest => do
    if (← arena.expression id).isAggregate then return true
    arena.anyAggregate rest

/-- The number of rows that follows from the plan alone, following inputs no deeper than the
limit. -/
def staticRowsWithin (arena : Arena) : Nat → NodeId → Except Stop (Option Nat)
  | 0, _ => .error .unending
  | limit + 1, id => do
    if arena.isExpression id then return none
    match ← arena.operator id with
    | .tableScan table => return some table.rows
    | .partitionScan _ rows => return some rows
    | .projection source expressions =>
      if ← arena.anyAggregate expressions then return none
      arena.staticRowsWithin limit source
    | .order source _ => arena.staticRowsWithin limit source
    | .limit source count offset =>
      return (← arena.staticRowsWithin limit source).map fun rows => min (rows - offset) count
    | _ => return none

/-- The number of rows that follows from the plan alone, if any does. -/
def staticRows (arena : Arena) (root : NodeId) : Except Stop (Option Nat) :=
  arena.staticRowsWithin arena.walkLimit root

end Arena

/-- The aggregate that counts all rows. -/
def countFunction : String := "count_star"

/-- Adds a plan that counts the rows of another: a projection to the only column of an aggregate
without keys. One input column is mentioned, if there is any, so that it is not dropped on the
way. -/
def Building.countPlan (root : NodeId) : Building NodeId := do
  let field : Field := { name := countFunction, datatype := .uint64, nullable := false }
  let mentioned := if 0 < (← (← get).output root).schema.size then [0] else []
  let count ← aggregate (.ofField field) root countFunction mentioned false
  let total ← operator (.ofSchema { fields := [field] }) (.aggregate root [] [count])
  let only ← column total 0
  projection (.ofField field) total [only]

end Rankwise

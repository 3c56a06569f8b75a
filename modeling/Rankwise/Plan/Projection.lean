import Rankwise.Plan.Arena

/-!
# Questions about projections

A projection is *single* if it has exactly one expression. Whatever is no projection is not single,
and an expression is no projection.
-/

namespace Rankwise.Arena

/-- The source and the expressions of a projection, if the node is one. -/
def projection? (arena : Arena) (id : NodeId) :
    Except Failure (Option (NodeId × List NodeId)) := do
  if arena.isExpression id then return none
  match ← arena.operator id with
  | .projection source expressions => return some (source, expressions)
  | _ => return none

/-- Whether there is a reference to a column at a place. -/
def isColumn (arena : Arena) (id : NodeId) : Except Failure Bool := do
  return (← arena.expression id).isColumn

/-- Whether all of the expressions are references to columns. Nothing is asked behind the first one
that is not. -/
def areColumns (arena : Arena) : List NodeId → Except Failure Bool
  | [] => .ok true
  | id :: rest => do
    if ← arena.isColumn id then arena.areColumns rest else return false

/-- Whether the node is a projection with one expression. -/
def isSingleProjection (arena : Arena) (id : NodeId) : Except Failure Bool := do
  return (← arena.projection? id).any fun (_, expressions) => expressions.length = 1

/-- Whether the node is a projection to columns of its source. -/
def isColumnProjection (arena : Arena) (id : NodeId) : Except Failure Bool := do
  match ← arena.projection? id with
  | some (_, expressions) => arena.areColumns expressions
  | none => return false

/-- Whether the node is a projection to one column of its source. -/
def isSingleColumnProjection (arena : Arena) (id : NodeId) : Except Failure Bool := do
  match ← arena.projection? id with
  | some (_, [expression]) => arena.isColumn expression
  | _ => return false

/-- A single projection is asked for where there is none. -/
def notSingleProjection (id : NodeId) : Failure where
  kind := .plan
  message := "Expected a projection with a single expression"
  fields := [("node", id.text)]

/-- The expression of a single projection. -/
def singleExpression (arena : Arena) (id : NodeId) : Except Failure NodeId := do
  match ← arena.projection? id with
  | some (_, [expression]) => return expression
  | _ => throw (notSingleProjection id)

/-- A single column is asked for where there is a table. -/
def notSingleColumn (id : NodeId) : Failure where
  kind := .plan
  message := "Expected a single column node"
  fields := [("node", id.text)]

/-- The source of a single projection. Any other node has to produce a single column and stands for
itself. -/
def singleSource (arena : Arena) (id : NodeId) : Except Failure NodeId := do
  match ← arena.projection? id with
  | some (source, [_]) => return source
  | _ =>
    if (← arena.output id).isSingleColumn then return id else throw (notSingleColumn id)

end Rankwise.Arena

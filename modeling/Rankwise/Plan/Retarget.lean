import Rankwise.Plan.Arena

/-!
# Moving expressions to another source

An expression over a relation can often be evaluated over a projection of that relation just as
well: each column that it refers to has to be among the columns that the projection passes on. The
moved expression is added to the plan and the given one stays. Where an expression cannot be moved
there is no result, and that is no failure.
-/

namespace Rankwise

namespace Arena

/-- The expressions of a projection directly over `source`, if the node is one. -/
def projectionOver? (arena : Arena) (id source : NodeId) :
    Except Failure (Option (List NodeId)) :=
  match arena.operator id with
  | .ok (.projection below expressions) =>
    .ok (if below = source then some expressions else none)
  | .ok _ => .ok none
  | .error failure => if arena.isExpression id then .ok none else .error failure

/-- The first place in a list of expressions at which the given column is passed on. -/
def passedOn? (arena : Arena) (source : NodeId) (index : Nat) :
    List NodeId → Except Failure (Option Nat)
  | [] => .ok none
  | id :: rest => do
    if (← arena.expression id) = .column source index then return some 0
    return (← arena.passedOn? source index rest).map (· + 1)

end Arena

namespace Building

/-- Moves one side of a binary expression. Scalars can go anywhere. -/
def moveSide (move : NodeId → Building (Option NodeId)) : Side → Building (Option Side)
  | .expression id => do return (← move id).map Side.expression
  | .scalar value => return some (.scalar value)

/-- Moves an expression onto a new source, following its parts no deeper than the limit. -/
def retargetWithin (target : NodeId) : Nat → NodeId → Building (Option NodeId)
  | 0, _ => throw .unending
  | limit + 1, id => do
    let arena ← get
    if (← arena.sourceOf id) = target then return some id
    let output ← arena.output id
    match ← arena.expression id with
    | .column source index =>
      let some expressions ← arena.projectionOver? target source | return none
      let some place ← arena.passedOn? source index expressions | return none
      return some (← expression output (.column target place))
    | .constant source value =>
      let some _ ← arena.projectionOver? target source | return none
      return some (← constant output target value)
    | .null source field =>
      let some _ ← arena.projectionOver? target source | return none
      return some (← null output target field)
    | .unary operand operator =>
      let some operand ← retargetWithin target limit operand | return none
      return some (← unary output operand operator)
    | .binary left right operator =>
      let some left ← moveSide (retargetWithin target limit) left | return none
      let some right ← moveSide (retargetWithin target limit) right | return none
      return some (← binary output left right operator)
    | .aggregate _ _ _ _ | .rowFunction _ => return none

/-- The expression, evaluated against the new source. It is the expression itself if it is over
that source already. Calls to aggregates and to functions are never moved. -/
def retarget (id target : NodeId) : Building (Option NodeId) := do
  retargetWithin target (← get).walkLimit id

/-- Brings the sides of a binary expression over one source: the left one is moved to the source of
the right one, or else the right one to the source of the left one. -/
def matchSources (left right : Side) : Building (Option (Side × Side)) := do
  match left, right with
  | .expression leftId, .expression rightId =>
    if let some moved ← retarget leftId (← (← get).sourceOf rightId) then
      return some (.expression moved, right)
    if let some moved ← retarget rightId (← (← get).sourceOf leftId) then
      return some (left, .expression moved)
    return none
  | _, _ => return some (left, right)

/-- A function cannot be moved unless it reads one column. -/
def notOneColumn (call : RowFunction) : Failure where
  kind := .plan
  message := "Can only move a scalar function with a single input column"
  fields := [("function", call.function), ("num_inputs", toString call.columns.length)]

/-- Moves one side of a binary expression together with the functions in it. -/
def shiftSide (move : NodeId → Building NodeId) : Side → Building Side
  | .expression id => do return .expression (← move id)
  | .scalar value => return .scalar value

/-- Moves the functions within an expression, following its parts no deeper than the limit. The
place of a column is a machine word, and any offset may be asked for. -/
def shiftFunctionsWithin (overflow : Overflow) (target : NodeId) (offset : Nat) :
    Nat → NodeId → Building NodeId
  | 0, _ => throw .unending
  | limit + 1, id => do
    let arena ← get
    let output ← arena.output id
    match ← arena.expression id with
    | .rowFunction call =>
      if call.source = target then return id
      match call.columns with
      | [column] =>
        let moved ← overflow.add column offset
        expression output (.rowFunction { call with source := target, columns := [moved] })
      | _ => throw (.failed (notOneColumn call))
    | .unary operand operator =>
      let moved ← shiftFunctionsWithin overflow target offset limit operand
      if moved = operand then return id
      unary output moved operator
    | .binary left right operator =>
      let movedLeft ← shiftSide (shiftFunctionsWithin overflow target offset limit) left
      let movedRight ← shiftSide (shiftFunctionsWithin overflow target offset limit) right
      if movedLeft.equalAsValue left && movedRight.equalAsValue right then return id
      binary output movedLeft movedRight operator
    | _ => return id

/-- Moves the calls to functions within an expression onto a new source in which their column lies
`offset` places further on. What holds no such call is left as it is. -/
def shiftFunctions (overflow : Overflow) (id target : NodeId) (offset : Nat) :
    Building NodeId := do
  shiftFunctionsWithin overflow target offset (← get).walkLimit id

end Building

end Rankwise

import Rankwise.Table.Scalar

/-!
# Expressions

An expression computes one column over a *source*, the relation that it is evaluated against. The
parts of an expression are nodes of a plan and are named by their places there. Leaves name their
source; a composite expression is over the source of its parts.
-/

namespace Rankwise

/-- The name of a node: its place in the plan that holds it. -/
structure NodeId where
  index : Nat
deriving DecidableEq, Repr

/-- The name as people see it. -/
def NodeId.text (id : NodeId) : String := "n" ++ toString id.index

/-- An operation on one column. -/
inductive UnaryOperator where
  | negate
  | not
  | isNull
  | isNotNull
deriving DecidableEq, Repr

namespace UnaryOperator

/-- The name by which the engine knows the operation. -/
def name : UnaryOperator → String
  | negate => "negate"
  | not => "not"
  | isNull => "is_null"
  | isNotNull => "is_not_null"

/-- The operation written with its operand. -/
def text (operator : UnaryOperator) (operand : String) : String :=
  match operator with
  | negate => "-" ++ operand
  | not => "NOT " ++ operand
  | isNull => operand ++ " IS NULL"
  | isNotNull => operand ++ " IS NOT NULL"

end UnaryOperator

/-- The groups into which binary operations fall. -/
inductive BinaryKind where
  | arithmetic
  | comparison
  | conjunction
deriving DecidableEq, Repr

/-- An operation on two columns or values. -/
inductive BinaryOperator where
  | add
  | subtract
  | multiply
  | divide
  | floorDivide
  | modulo
  | equal
  | notEqual
  | less
  | lessOrEqual
  | greater
  | greaterOrEqual
  | and
  | or
deriving DecidableEq, Repr

namespace BinaryOperator

/-- The group of the operation. -/
def kind : BinaryOperator → BinaryKind
  | add | subtract | multiply | divide | floorDivide | modulo => .arithmetic
  | equal | notEqual | less | lessOrEqual | greater | greaterOrEqual => .comparison
  | and | or => .conjunction

/-- The sign of the operation, by which the engine knows it too. -/
def sign : BinaryOperator → String
  | add => "+"
  | subtract => "-"
  | multiply => "*"
  | divide => "/"
  | floorDivide => "//"
  | modulo => "%"
  | equal => "="
  | notEqual => "!="
  | less => "<"
  | lessOrEqual => "<="
  | greater => ">"
  | greaterOrEqual => ">="
  | and => "AND"
  | or => "OR"

end BinaryOperator

/-- One side of a binary expression. -/
inductive Side where
  | expression (id : NodeId)
  | scalar (value : Scalar)
deriving DecidableEq, Repr

/-- The expression on a side, if there is one. -/
def Side.expression? : Side → Option NodeId
  | expression id => some id
  | scalar _ => none

/-- Whether two sides mean the same. Scalars are compared as values, so a side that holds a NaN
differs from itself. -/
def Side.equalAsValue : Side → Side → Bool
  | expression a, expression b => decide (a = b)
  | scalar a, scalar b => a.equalAsValue b
  | _, _ => false

/-- A call to a function that is applied row by row and that the engine knows by its name. -/
structure RowFunction where
  source : NodeId
  function : String
  /-- Further arguments, the same for every row. -/
  arguments : List Scalar
  /-- The columns of the source that the function reads. -/
  columns : List Nat
  /-- Whether the function uses the engine's own calling convention. -/
  isNative : Bool
  /-- Whether the function remembers something from row to row. -/
  hasState : Bool
deriving DecidableEq, Repr

/-- An expression. -/
inductive Expression where
  /-- A column of the source. -/
  | column (source : NodeId) (index : Nat)
  /-- The same value in every row. The source only says where the expression belongs. -/
  | constant (source : NodeId) (value : Scalar)
  /-- A null of the type of a field. -/
  | null (source : NodeId) (field : Nat)
  | unary (operand : NodeId) (operator : UnaryOperator)
  | binary (left right : Side) (operator : BinaryOperator)
  /-- An aggregate over columns of the source, with or without the nulls among them. -/
  | aggregate (source : NodeId) (function : String) (columns : List Nat) (skipNulls : Bool)
  | rowFunction (call : RowFunction)
deriving DecidableEq, Repr

namespace Expression

/-- The name by which the engine knows this kind of expression. -/
def name : Expression → String
  | column _ _ => "ColRefExpression"
  | constant _ _ => "ConstantExpression"
  | null _ _ => "NullExpression"
  | unary _ _ => "UnaryOpExpression"
  | binary _ _ operator => match operator.kind with
    | .arithmetic => "ArithOpExpression"
    | .comparison => "ComparisonOpExpression"
    | .conjunction => "ConjunctionOpExpression"
  | aggregate _ _ _ _ => "AggregateExpression"
  | rowFunction _ => "ScalarFuncExpression"

/-- The source that a leaf names. -/
def source? : Expression → Option NodeId
  | column source _ | constant source _ | null source _ | aggregate source _ _ _ => some source
  | rowFunction call => some call.source
  | unary _ _ | binary _ _ _ => none

/-- The expressions that a composite expression is made of. -/
def parts : Expression → List NodeId
  | unary operand _ => [operand]
  | binary left right _ => [left, right].filterMap Side.expression?
  | _ => []

/-- Whether the expression is a reference to a column. -/
def isColumn : Expression → Bool
  | column _ _ => true
  | _ => false

/-- Whether the expression is itself a call to an aggregate. -/
def isAggregate : Expression → Bool
  | aggregate _ _ _ _ => true
  | _ => false

end Expression

end Rankwise

import Rankwise.CallId
import Rankwise.Json
import Rankwise.Named
import Rankwise.Table.Batch

/-!
# Values

What can be handed to a computation and what it can hand back: scalars, tables, tuples and maps of
values, names of registered functions, contexts of named tables, and structured values that are
passed through untouched.
-/

namespace Rankwise

/-- The name under which every worker of a group keeps its partition of a result. -/
structure ResultId where
  text : String
deriving DecidableEq, Repr

/-- The name of the distributed output number `leaf` of a call. All ranks arrive at the same name
without talking to one another. -/
def ResultId.ofOutput (call : CallId) (leaf : Nat) : ResultId :=
  ⟨call.text ++ "-" ++ toString leaf⟩

/-- Where a table of a context comes from. -/
inductive TableSource where
  | data (batch : Batch)
  /-- A table that the workers read themselves. -/
  | path (path : String)
deriving DecidableEq, Repr

/-- Named tables with the catalog and the time zone that go with them. -/
structure TableContext where
  tables : Named TableSource := []
  catalog : Option String := none
  timeZone : Option String := none
deriving DecidableEq, Repr

/-- A value that can be handed to a computation. -/
inductive Value where
  | null
  | scalar (value : Scalar)
  | table (batch : Batch)
  | tuple (items : List Value)
  | map (entries : List (String × Value))
  /-- A function that is registered on the workers, by name. -/
  | function (name : String)
  | context (context : TableContext)
  /-- A structured value, passed through untouched. -/
  | json (value : Json)
deriving Repr

namespace Value

/-- The table, if the value is one. -/
def table? : Value → Option Batch
  | table batch => some batch
  | _ => none

/-- The name of the kind of value. -/
def kindName : Value → String
  | null => "Null"
  | scalar _ => "Scalar"
  | table _ => "Table"
  | tuple _ => "Tuple"
  | map _ => "Map"
  | function _ => "Function"
  | context _ => "Context"
  | json _ => "Json"

end Value

end Rankwise

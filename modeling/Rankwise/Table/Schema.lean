import Rankwise.Failure
import Rankwise.Table.Scalar

/-!
# Schemas

A schema lists the fields of a table in order. Names need not be distinct; looking a name up finds
the first field that bears it.
-/

namespace Rankwise

/-- A column as it is declared. -/
structure Field where
  name : String
  datatype : Datatype
  nullable : Bool
deriving DecidableEq, Repr

/-- The field as people see it: its name and its type. -/
def Field.text (field : Field) : String := field.name ++ ": " ++ field.datatype.text

/-- The fields of a table, in order. -/
structure Schema where
  fields : List Field := []
deriving DecidableEq, Repr

namespace Schema

/-- The number of fields. -/
def size (schema : Schema) : Nat := schema.fields.length

/-- There is no field at this place. -/
def noField (index size : Nat) : Failure where
  message := "Field index out of range"
  fields := [("idx", toString index), ("num_fields", toString size)]

/-- The field at a place. -/
def field (schema : Schema) (index : Nat) : Except Failure Field :=
  match schema.fields[index]? with
  | some field => .ok field
  | none => .error (noField index schema.size)

/-- The place of the first field with the given name. -/
def indexOf? (schema : Schema) (name : String) : Option Nat :=
  schema.fields.findIdx? fun field => field.name = name

/-- The types of the fields, in order. -/
def datatypes (schema : Schema) : List Datatype := schema.fields.map Field.datatype

/-- The schema as people see it: its fields in brackets. -/
def text (schema : Schema) : String :=
  "[" ++ ", ".intercalate (schema.fields.map Field.text) ++ "]"

end Schema

end Rankwise

import Rankwise.Json.Decoder
import Rankwise.Table.Batch

/-!
# Tables as structured values

How scalars, schemas and batches are written and read. A double is written as its bit pattern, so
every NaN and the infinities survive. Reading a batch checks that its parts are what they claim to
be, not that they fit together.
-/

namespace Rankwise

open Json (Decoder Choice Record)

namespace Datatype

/-- The types under the names by which they are written. -/
def written : List (String × Datatype) :=
  [("Null", null), ("Boolean", boolean), ("Int32", int32), ("Int64", int64), ("UInt64", uint64),
    ("Float64", float64), ("Utf8", utf8), ("TimestampMicroseconds", timestamp)]

/-- The name by which the type is written. -/
def encode : Datatype → Json
  | null => .string "Null"
  | boolean => .string "Boolean"
  | int32 => .string "Int32"
  | int64 => .string "Int64"
  | uint64 => .string "UInt64"
  | float64 => .string "Float64"
  | utf8 => .string "Utf8"
  | timestamp => .string "TimestampMicroseconds"

def decode : Decoder Datatype := Decoder.oneOf written

end Datatype

namespace Scalar

def encode : Scalar → Json
  | null => .string "Null"
  | boolean value => .choice "Boolean" (.boolean value)
  | int32 value => .choice "Int32" (.integer value.toInt)
  | int64 value => .choice "Int64" (.integer value.toInt)
  | uint64 value => .choice "UInt64" (.natural value.toNat)
  | float64 value => .choice "Float64" (.natural value.bits.toNat)
  | utf8 value => .choice "Utf8" (.string value)
  | timestamp value => .choice "TimestampMicroseconds" (.integer value.toInt)

/-- Reads a signed word of sixty-four bits. -/
def decodeInt64 : Decoder Int64 :=
  (Decoder.integer (-0x8000000000000000) 0x7fffffffffffffff).andThen fun value =>
    some (Int64.ofInt value)

/-- Reads a signed word of thirty-two bits. -/
def decodeInt32 : Decoder Int32 :=
  (Decoder.integer (-0x80000000) 0x7fffffff).andThen fun value => some (Int32.ofInt value)

/-- Reads an unsigned word of sixty-four bits. -/
def decodeUInt64 : Decoder UInt64 :=
  (Decoder.word 64).andThen fun value => some (UInt64.ofNat value)

def decode : Decoder Scalar := fun room written => do
  let choice ← Choice.open? room written
  match choice.name with
  | "Null" => choice.bare null
  | "Boolean" => choice.carrying (Decoder.boolean.andThen fun value => some (boolean value))
  | "Int32" => choice.carrying (decodeInt32.andThen fun value => some (int32 value))
  | "Int64" => choice.carrying (decodeInt64.andThen fun value => some (int64 value))
  | "UInt64" => choice.carrying (decodeUInt64.andThen fun value => some (uint64 value))
  | "Float64" => choice.carrying (decodeUInt64.andThen fun value => some (float64 ⟨value⟩))
  | "Utf8" => choice.carrying (Decoder.string.andThen fun value => some (utf8 value))
  | "TimestampMicroseconds" =>
    choice.carrying (decodeInt64.andThen fun value => some (timestamp value))
  | _ => none

end Scalar

namespace Field

def encode (field : Field) : Json :=
  .object [("name", .string field.name), ("datatype", field.datatype.encode),
    ("nullable", .boolean field.nullable)]

def decode : Decoder Field := fun room written => do
  let record ← Record.open? ["name", "datatype", "nullable"] room written
  return {
    name := ← record.field "name" Decoder.string
    datatype := ← record.field "datatype" Datatype.decode
    nullable := ← record.field "nullable" Decoder.boolean }

end Field

namespace Schema

def encode (schema : Schema) : Json :=
  .object [("fields", .array (schema.fields.map Field.encode))]

def decode : Decoder Schema := fun room written => do
  let record ← Record.open? ["fields"] room written
  return { fields := ← record.field "fields" (Decoder.list Field.decode) }

end Schema

namespace Batch

def encode (batch : Batch) : Json :=
  .object [("schema", batch.schema.encode),
    ("columns", .array (batch.columns.map fun column => .array (column.map Scalar.encode))),
    ("num_rows", .natural batch.rows)]

def decode : Decoder Batch := fun room written => do
  let record ← Record.open? ["schema", "columns", "num_rows"] room written
  return {
    schema := ← record.field "schema" Schema.decode
    columns := ← record.field "columns" (Decoder.list (Decoder.list Scalar.decode))
    rows := ← record.field "num_rows" Decoder.size }

end Batch

end Rankwise

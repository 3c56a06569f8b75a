import Rankwise.Proofs.Reading

/-!
# Tables are read back as they were written

Scalars keep their exact words, doubles their bit patterns. The number of rows of a batch is a
number of its own and has to be a machine word.
-/

namespace Rankwise

open Json (Reads Record Choice)

namespace Datatype

/-- A datatype is read back as itself. -/
theorem reads (datatype : Datatype) : Reads decode datatype.encode datatype := by
  cases datatype <;> exact Json.reads_oneOf written _ _ rfl

end Datatype

namespace Scalar

/-- A signed word of 64 bits is read back as itself. -/
theorem reads_int64 (value : Int64) : Reads decodeInt64 (.integer value.toInt) value := by
  apply Json.Reads.andThen _ _ (Json.reads_integer _ _ _ _)
  · rw [Int64.ofInt_toInt]
  · have least := value.le_toInt
    have greatest := value.toInt_lt
    constructor <;> omega

/-- A signed word of 32 bits is read back as itself. -/
theorem reads_int32 (value : Int32) : Reads decodeInt32 (.integer value.toInt) value := by
  apply Json.Reads.andThen _ _ (Json.reads_integer _ _ _ _)
  · rw [Int32.ofInt_toInt]
  · have least := value.le_toInt
    have greatest := value.toInt_lt
    constructor <;> omega

/-- An unsigned word of 64 bits is read back as itself. -/
theorem reads_uint64 (value : UInt64) : Reads decodeUInt64 (.natural value.toNat) value := by
  apply Json.Reads.andThen _ _ (Json.reads_word 64 _ value.toNat_lt)
  rw [UInt64.ofNat_toNat]

/-- A scalar is read back as itself, whatever its type. -/
theorem reads (scalar : Scalar) : Reads decode scalar.encode scalar := by
  cases scalar with
  | null => exact Json.reads_bare "Null" _ _ fun _ => rfl
  | boolean value =>
    exact Json.reads_choice "Boolean" (fun _ _ => rfl) ((Json.reads_boolean value).andThen _ _ rfl)
  | int32 value =>
    exact Json.reads_choice "Int32" (fun _ _ => rfl) ((reads_int32 value).andThen _ _ rfl)
  | int64 value =>
    exact Json.reads_choice "Int64" (fun _ _ => rfl) ((reads_int64 value).andThen _ _ rfl)
  | uint64 value =>
    exact Json.reads_choice "UInt64" (fun _ _ => rfl) ((reads_uint64 value).andThen _ _ rfl)
  | float64 value =>
    exact Json.reads_choice "Float64" (fun _ _ => rfl) ((reads_uint64 value.bits).andThen _ _ rfl)
  | utf8 value =>
    exact Json.reads_choice "Utf8" (fun _ _ => rfl) ((Json.reads_string value).andThen _ _ rfl)
  | timestamp value =>
    exact Json.reads_choice "TimestampMicroseconds" (fun _ _ => rfl)
      ((reads_int64 value).andThen _ _ rfl)

end Scalar

/-- A field is read back as itself. -/
theorem Field.reads (field : Field) : Reads Field.decode field.encode field := by
  apply Json.reads_record ["name", "datatype", "nullable"] (by decide) _ rfl
  refine .field "name" rfl (Json.reads_string field.name) ?_
  refine .field "datatype" rfl field.datatype.reads ?_
  exact .field "nullable" rfl (Json.reads_boolean field.nullable) .done

/-- A schema is read back as itself. -/
theorem Schema.reads (schema : Schema) : Reads Schema.decode schema.encode schema := by
  apply Json.reads_record ["fields"] (by decide) _ rfl
  exact .field "fields" rfl (Json.reads_items schema.fields fun field _ => field.reads) .done

namespace Batch

/-- The number of rows is a machine word. -/
def Fits (batch : Batch) : Prop := batch.rows < 2 ^ 64

/-- A batch whose number of rows is a machine word is read back as itself. -/
theorem reads (batch : Batch) (fits : batch.Fits) : Reads decode batch.encode batch := by
  apply Json.reads_record ["schema", "columns", "num_rows"] (by decide) _ rfl
  refine .field "schema" rfl batch.schema.reads ?_
  refine .field "columns" rfl (Json.reads_items batch.columns fun column _ =>
    Json.reads_items column fun scalar _ => scalar.reads) ?_
  exact .field "num_rows" rfl (Json.reads_size batch.rows fits) .done

end Batch

end Rankwise

import Rankwise.Table.Schema

/-!
# Batches

A batch is a table in memory, held column by column. The number of rows is kept beside the columns,
so a batch without columns can still have rows. `Batch.Consistent` says that the three parts agree:
one column per field, each as long as the number of rows. Batches that were made here are
consistent; a batch that was read from a text is whatever the text said.
-/

namespace Rankwise

/-- A table in memory. -/
structure Batch where
  schema : Schema
  columns : List (List Scalar)
  /-- The number of rows. -/
  rows : Nat
deriving DecidableEq, Repr

namespace Batch

/-- There is one column per field and every column has the stated number of rows. -/
def Consistent (batch : Batch) : Prop :=
  batch.columns.length = batch.schema.size ∧ ∀ column ∈ batch.columns, column.length = batch.rows

instance (batch : Batch) : Decidable batch.Consistent :=
  inferInstanceAs (Decidable (_ ∧ _))

/-- The batch of a schema that has no rows. -/
def empty (schema : Schema) : Batch where
  schema
  columns := schema.fields.map fun _ => []
  rows := 0

/-- There are not as many columns as fields. -/
def columnCountMismatch (columns fields : Nat) : Failure where
  message := "Column count does not match schema"
  fields := [("columns", toString columns), ("fields", toString fields)]

/-- The column at `index` is not as long as the first one. -/
def columnLengthMismatch (expected got index : Nat) : Failure where
  message := s!"Expected column length to be {expected}, got {got}. Column idx: {index}"

/-- The batch with these columns. There has to be one per field, and all have to be equally long. -/
def ofColumns (schema : Schema) (columns : List (List Scalar)) : Except Failure Batch :=
  if columns.length ≠ schema.size then
    .error (columnCountMismatch columns.length schema.size)
  else
    let rows := (columns.head?.map List.length).getD 0
    match columns.zipIdx.find? fun (column, _) => column.length ≠ rows with
    | some (column, index) => .error (columnLengthMismatch rows column.length index)
    | none => .ok { schema, columns, rows }

/-- The column at a place. -/
def column? (batch : Batch) (index : Nat) : Option (List Scalar) := batch.columns[index]?

/-- The value in a column and a row. -/
def value? (batch : Batch) (column row : Nat) : Option Scalar :=
  batch.columns[column]?.bind fun values => values[row]?

/-- The batch with the columns at the given places, in their order. -/
def project (batch : Batch) (indices : List Nat) : Except Failure Batch := do
  let fields ← indices.mapM batch.schema.field
  return {
    schema := { fields }
    columns := indices.map fun index => (batch.columns[index]?).getD []
    rows := batch.rows }

/-- At most `count` rows, from the row `offset` on. The sum of both is taken without bound; it is no
more than the number of rows for the blocks that a table is split into. -/
def slice (batch : Batch) (offset count : Nat) : Batch :=
  let start := min offset batch.rows
  let stop := min (offset + count) batch.rows
  { schema := batch.schema
    columns := batch.columns.map fun column => (column.take stop).drop start
    rows := stop - start }

/-- The number of rows of block `index` when `rows` rows are split into `count` blocks: the first
blocks take what an even division leaves over, one row each. -/
def blockSize (rows count index : Nat) : Nat :=
  rows / count + if index < rows % count then 1 else 0

/-- The row with which block `index` starts. -/
def blockStart (rows count index : Nat) : Nat :=
  index * (rows / count) + min index (rows % count)

/-- A table cannot be split into no blocks. -/
def noBlocks : Failure := { message := "Cannot split a batch into zero partitions" }

/-- The rows in `count` consecutive blocks whose sizes differ by at most one, larger blocks first.
There are always exactly `count` of them, empty ones included. -/
def splitEven (batch : Batch) (count : Nat) : Except Failure (List Batch) :=
  if count = 0 then .error noBlocks
  else .ok <| (List.range count).map fun index =>
    batch.slice (blockStart batch.rows count index) (blockSize batch.rows count index)

/-- A part of a concatenation has other types than the whole. -/
def schemaMismatch (expected got : Schema) : Failure where
  message := "Cannot concat batches with different schemas"
  fields := [("expected", expected.text), ("got", got.text)]

/-- Adds the rows of `next` below those of `batch`. The rows of a table with columns are held in
memory. A table without columns may say that it has any number of rows up to the largest machine
word, and such numbers are added without bound, where the program breaks off or wraps around. -/
def append (batch next : Batch) : Except Failure Batch :=
  if next.schema.datatypes ≠ batch.schema.datatypes then
    .error (schemaMismatch batch.schema next.schema)
  else .ok {
    schema := batch.schema
    columns := batch.columns.zipWith (· ++ ·) next.columns
      ++ batch.columns.drop next.columns.length
    rows := batch.rows + next.rows }

/-- The rows of all parts, one below the other. The parts have to have the types of the schema. -/
def concat (schema : Schema) (parts : List Batch) : Except Failure Batch :=
  parts.foldlM append (empty schema)

/-- Equality of tables: everything is the same, doubles compared as numbers. -/
def equalAsValue (a b : Batch) : Bool :=
  decide (a.schema = b.schema) && decide (a.rows = b.rows)
    && a.columns.length == b.columns.length
    && (a.columns.zip b.columns).all fun (left, right) =>
      left.length == right.length && (left.zip right).all fun (x, y) => x.equalAsValue y

end Batch

end Rankwise

import Rankwise.Group.Message
import Rankwise.Wire.Value

/-!
# Messages as structured values

How messages and their parts are written and read. A command is written as its number.
-/

namespace Rankwise

open Json (Decoder Choice Record)

namespace RankFailure

def encode (report : RankFailure) : Json :=
  .object [("kind", .string report.kind), ("message", .string report.message),
    ("fields", .array (report.fields.map fun (key, value) => .strings [key, value]))]

def decode : Decoder RankFailure := fun room written => do
  let record ← Record.open? ["kind", "message", "fields"] room written
  return {
    kind := ← record.field "kind" Decoder.string
    message := ← record.field "message" Decoder.string
    fields := ← record.field "fields" (Decoder.list (Decoder.pair Decoder.string Decoder.string)) }

end RankFailure

namespace Transfer

def encode : Transfer → Json
  | broadcast => .string "Broadcast"
  | scatter => .string "Scatter"
  | lazy => .string "Lazy"

def decode : Decoder Transfer :=
  Decoder.oneOf [("Broadcast", broadcast), ("Scatter", scatter), ("Lazy", lazy)]

end Transfer

namespace TableShipment

def encode : TableShipment → Json
  | path location => .choice "Path" (.string location)
  | placeholder transfer => .choice "Placeholder" transfer.encode

def decode : Decoder TableShipment := fun room written => do
  let choice ← Choice.open? room written
  match choice.name with
  | "Path" => choice.carrying (Decoder.string.andThen fun text => some (path text))
  | "Placeholder" =>
    choice.carrying (Transfer.decode.andThen fun transfer => some (placeholder transfer))
  | _ => none

end TableShipment

namespace ContextShipment

def encode (shipment : ContextShipment) : Json :=
  .object [("tables", Named.encode TableShipment.encode shipment.tables),
    ("catalog", .ofOption .string shipment.catalog),
    ("default_tz", .ofOption .string shipment.timeZone)]

def decode : Decoder ContextShipment := fun room written => do
  let record ← Record.open? ["tables", "catalog", "default_tz"] room written
  return {
    tables := ← record.field "tables" (Decoder.named TableShipment.decode)
    catalog := ← record.field? "catalog" Decoder.string
    timeZone := ← record.field? "default_tz" Decoder.string }

end ContextShipment

namespace Skeleton

mutual

def encode : Skeleton → Json
  | value found => .choice "Value" found.encode
  | placeholder transfer => .choice "Placeholder" transfer.encode
  | tuple items => .choice "Tuple" (.array (encodeItems items))
  | map entries => .choice "Map" (.object (encodeEntries entries))
  | context shipment => .choice "Context" shipment.encode

/-- Writes the items. -/
def encodeItems : List Skeleton → List Json
  | [] => []
  | item :: rest => encode item :: encodeItems rest

/-- Writes the entries. -/
def encodeEntries : Named Skeleton → List (String × Json)
  | [] => []
  | (name, entry) :: rest => (name, encode entry) :: encodeEntries rest

end

/-- Reads a skeleton without parts of its own kind. -/
def decodeLeaf (choice : Choice) : Option Skeleton :=
  match choice.name with
  | "Value" => choice.carrying (Value.decode.andThen fun found => some (value found))
  | "Placeholder" =>
    choice.carrying (Transfer.decode.andThen fun transfer => some (placeholder transfer))
  | "Context" =>
    choice.carrying (ContextShipment.decode.andThen fun shipment => some (context shipment))
  | _ => none

/-- Reads a skeleton. A tuple and a map open two levels at once. -/
def decode : Decoder Skeleton
  | 0, _ => none
  | 1, written => (Choice.open? 1 written).bind decodeLeaf
  | room + 2, written => (Choice.open? (room + 2) written).bind fun choice =>
    match choice.name, choice.payload with
    | "Tuple", some (.array items) => (items.mapM (decode room)).map tuple
    | "Map", some (.object members) => do
      let entries ← members.mapM fun (name, entry) => do return (← name, ← decode room entry)
      some (map (Named.ofList entries))
    | _, _ => decodeLeaf choice

end Skeleton

namespace PartitionMeta

def encode (partition : PartitionMeta) : Json :=
  .object [("num_rows", .natural partition.rows), ("schema", partition.schema.encode)]

def decode : Decoder PartitionMeta := fun room written => do
  let record ← Record.open? ["num_rows", "schema"] room written
  return {
    rows := ← record.field "num_rows" Decoder.size
    schema := ← record.field "schema" Schema.decode }

end PartitionMeta

namespace Message

def encode : Message → Json
  | command order => .choice "Command" (.natural order.tag)
  | environment found =>
    .choice "Env" (.object [("vars", Named.encode .string found)])
  | arguments positional keyword =>
    .choice "Args" (.object [("args", .array (positional.map Skeleton.encode)),
      ("kwargs", Named.encode Skeleton.encode keyword)])
  | data batch => .choice "Data" batch.encode
  | resultId id => .choice "ResultId" id.encode
  | computation description call =>
    .choice "Computation"
      (.object [("computation", description.encode), ("call_id", call.encode)])
  | completed => .string "Completed"
  | status failure => .choice "Status" (.ofOption RankFailure.encode failure)
  | proceed goOn => .choice "Proceed" (.boolean goOn)
  | outputShape shape => .choice "OutputTag" shape.encode
  | value found => .choice "Value" found.encode
  | partitionMeta found => .choice "PartitionMeta" (.ofOption PartitionMeta.encode found)
  | partition batch => .choice "Partition" (.ofOption Batch.encode batch)

/-- Reads the variables of a call. -/
def decodeEnvironment : Decoder Message := fun room written => do
  let record ← Record.open? ["vars"] room written
  return environment (← record.field "vars" (Decoder.named Decoder.string))

/-- Reads the skeletons of the arguments. -/
def decodeArguments : Decoder Message := fun room written => do
  let record ← Record.open? ["args", "kwargs"] room written
  return arguments (← record.field "args" (Decoder.list Skeleton.decode))
    (← record.field "kwargs" (Decoder.named Skeleton.decode))

/-- Reads a computation with the identifier of its call. -/
def decodeComputation : Decoder Message := fun room written => do
  let record ← Record.open? ["computation", "call_id"] room written
  return computation (← record.field "computation" Computation.decode)
    (← record.field "call_id" CallId.decode)

def decode : Decoder Message := fun room written => do
  let choice ← Choice.open? room written
  match choice.name with
  | "Command" =>
    choice.carrying ((Decoder.word 8).andThen fun tag => (Command.ofTag? tag).map command)
  | "Env" => choice.carrying decodeEnvironment
  | "Args" => choice.carrying decodeArguments
  | "Data" => choice.carrying (Batch.decode.andThen fun batch => some (data batch))
  | "ResultId" => choice.carrying (ResultId.decode.andThen fun id => some (resultId id))
  | "Computation" => choice.carrying decodeComputation
  | "Completed" => choice.bare completed
  | "Status" =>
    choice.carrying (RankFailure.decode.optional.andThen fun failure => some (status failure))
  | "Proceed" => choice.carrying (Decoder.boolean.andThen fun goOn => some (proceed goOn))
  | "OutputTag" =>
    choice.carrying (Distribution.decode.andThen fun shape => some (outputShape shape))
  | "Value" => choice.carrying (Value.decode.andThen fun found => some (value found))
  | "PartitionMeta" =>
    choice.carrying (PartitionMeta.decode.optional.andThen fun found => some (partitionMeta found))
  | "Partition" =>
    choice.carrying (Batch.decode.optional.andThen fun batch => some (partition batch))
  | _ => none

end Message

end Rankwise

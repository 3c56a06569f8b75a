import Rankwise.Group.Computation
import Rankwise.Wire.Table

/-!
# Values as structured values

How values, contexts and the descriptions of computations are written and read.
-/

namespace Rankwise

open Json (Decoder Choice Record)

/-- Writes entries as the members of an object. -/
def Named.encode {α : Type} (encodeValue : α → Json) (entries : Named α) : Json :=
  .object (entries.mapValues encodeValue)

namespace ResultId

def encode (id : ResultId) : Json := .string id.text

def decode : Decoder ResultId := Decoder.string.andThen fun text => some ⟨text⟩

end ResultId

namespace CallId

def encode (id : CallId) : Json := .string id.text

def decode : Decoder CallId := Decoder.string.andThen ofText?

end CallId

namespace TableSource

def encode : TableSource → Json
  | data batch => .choice "Data" batch.encode
  | path location => .choice "Path" (.string location)

def decode : Decoder TableSource := fun room written => do
  let choice ← Choice.open? room written
  match choice.name with
  | "Data" => choice.carrying (Batch.decode.andThen fun batch => some (data batch))
  | "Path" => choice.carrying (Decoder.string.andThen fun text => some (path text))
  | _ => none

end TableSource

namespace TableContext

def encode (context : TableContext) : Json :=
  .object [("tables", Named.encode TableSource.encode context.tables),
    ("catalog", .ofOption .string context.catalog),
    ("default_tz", .ofOption .string context.timeZone)]

def decode : Decoder TableContext := fun room written => do
  let record ← Record.open? ["tables", "catalog", "default_tz"] room written
  return {
    tables := ← record.field "tables" (Decoder.named TableSource.decode)
    catalog := ← record.field? "catalog" Decoder.string
    timeZone := ← record.field? "default_tz" Decoder.string }

end TableContext

namespace Value

mutual

def encode : Value → Json
  | null => .string "Null"
  | scalar value => .choice "Scalar" value.encode
  | table batch => .choice "Table" batch.encode
  | tuple items => .choice "Tuple" (.array (encodeItems items))
  | map entries => .choice "Map" (.object (encodeEntries entries))
  | function name => .choice "Function" (.object [("name", .string name)])
  | context tables => .choice "Context" tables.encode
  | json value => .choice "Json" value

/-- Writes the items. -/
def encodeItems : List Value → List Json
  | [] => []
  | item :: rest => encode item :: encodeItems rest

/-- Writes the entries. -/
def encodeEntries : Named Value → List (String × Json)
  | [] => []
  | (name, entry) :: rest => (name, encode entry) :: encodeEntries rest

end

/-- Reads the name of a function. -/
def decodeFunction : Decoder String := fun room written => do
  let record ← Record.open? ["name"] room written
  record.field "name" Decoder.string

/-- Reads a value that has no parts of its own kind. -/
def decodeLeaf (choice : Choice) : Option Value :=
  match choice.name with
  | "Null" => choice.bare null
  | "Scalar" => choice.carrying (Scalar.decode.andThen fun value => some (scalar value))
  | "Table" => choice.carrying (Batch.decode.andThen fun batch => some (table batch))
  | "Function" => choice.carrying (decodeFunction.andThen fun name => some (function name))
  | "Context" => choice.carrying (TableContext.decode.andThen fun found => some (context found))
  | "Json" => choice.carrying (Json.decode.andThen fun value => some (json value))
  | _ => none

/-- Reads a value. A tuple and a map open two levels at once, that of the choice and their own. -/
def decode : Decoder Value
  | 0, written => (Choice.open? 0 written).bind decodeLeaf
  | 1, written => (Choice.open? 1 written).bind decodeLeaf
  | room + 2, written => (Choice.open? (room + 2) written).bind fun choice =>
    match choice.name, choice.payload with
    | "Tuple", some (.array items) => (items.mapM (decode room)).map tuple
    | "Map", some (.object members) => do
      let entries ← members.mapM fun (name, entry) => do return (← name, ← decode room entry)
      some (map (Named.ofList entries))
    | _, _ => decodeLeaf choice

end Value

namespace Computation

def Options.encode (options : Options) : Json :=
  .object [("replicated", .strings options.replicated),
    ("distributed_block", .strings options.distributedBlock),
    ("propagate_env", .strings options.propagateEnvironment)]

def Options.decode : Decoder Options := fun room written => do
  let record ← Record.open? ["replicated", "distributed_block", "propagate_env"] room written
  return {
    replicated := ← record.field "replicated" (Decoder.list Decoder.string)
    distributedBlock := ← record.field "distributed_block" (Decoder.list Decoder.string)
    propagateEnvironment := ← record.field "propagate_env" (Decoder.list Decoder.string) }

def encode (computation : Computation) : Json :=
  .object [("name", .string computation.name), ("params", .strings computation.parameters),
    ("config", computation.options.encode)]

def decode : Decoder Computation := fun room written => do
  let record ← Record.open? ["name", "params", "config"] room written
  return {
    name := ← record.field "name" Decoder.string
    parameters := ← record.field "params" (Decoder.list Decoder.string)
    options := ← record.field "config" Options.decode }

end Computation

namespace Distribution

mutual

def encode : Distribution → Json
  | replicated => .string "Replicated"
  | distributed => .string "Distributed"
  | tuple items => .choice "Tuple" (.array (encodeItems items))
  | map entries => .choice "Map" (.object (encodeEntries entries))

/-- Writes the items. -/
def encodeItems : List Distribution → List Json
  | [] => []
  | item :: rest => encode item :: encodeItems rest

/-- Writes the entries. -/
def encodeEntries : Named Distribution → List (String × Json)
  | [] => []
  | (name, entry) :: rest => (name, encode entry) :: encodeEntries rest

end

/-- Reads a shape that carries nothing. -/
def decodeLeaf (choice : Choice) : Option Distribution :=
  match choice.name with
  | "Replicated" => choice.bare replicated
  | "Distributed" => choice.bare distributed
  | _ => none

/-- Reads a shape. A tuple and a map open two levels at once. -/
def decode : Decoder Distribution
  | 0, written => (Choice.open? 0 written).bind decodeLeaf
  | 1, written => (Choice.open? 1 written).bind decodeLeaf
  | room + 2, written => (Choice.open? (room + 2) written).bind fun choice =>
    match choice.name, choice.payload with
    | "Tuple", some (.array items) => (items.mapM (decode room)).map tuple
    | "Map", some (.object members) => do
      let entries ← members.mapM fun (name, entry) => do return (← name, ← decode room entry)
      some (map (Named.ofList entries))
    | _, _ => decodeLeaf choice

end Distribution

end Rankwise

import Rankwise.Json.Written

/-!
# Reading values out of texts

A decoder reads one kind of value out of a tree. It is told its *room*: how many arrays and objects
it may still open. A text may nest 127 deep where it is read; parts that nobody asks for may nest as
they like. Decoders say yes or no and give no reasons.

Records may be written as objects or as arrays of all their fields. In an object, unknown names are
passed over, and a name that occurs twice is refused. Choices are written as objects whose only name
is that of the choice, and choices without a payload also as strings.
-/

namespace Rankwise.Json

/-- Reads a value out of a tree, opening no more arrays and objects within one another than the room
allows. -/
abbrev Decoder (α : Type) := Nat → Written → Option α

/-- How deep a text may nest where it is read. -/
def depthLimit : Nat := 127

namespace Decoder

variable {α β : Type}

/-- Reads a value and changes it, or refuses it after all. -/
def andThen (decoder : Decoder α) (next : α → Option β) : Decoder β :=
  fun room written => (decoder room written).bind next

/-- Reads a truth value. -/
def boolean : Decoder Bool
  | _, .boolean value => some value
  | _, _ => none

/-- Reads an integer that lies between two bounds, both included. -/
def integer (least greatest : Int) : Decoder Int
  | _, .number (some (.integer value)) =>
    if least ≤ value ∧ value ≤ greatest then some value else none
  | _, _ => none

/-- Reads a natural below `2 ^ width`. -/
def word (width : Nat) : Decoder Nat :=
  (integer 0 ((Nat.pow 2 width : Nat) - 1)).andThen fun value => some value.toNat

/-- Reads the size of something. -/
def size : Decoder Nat := word 64

/-- Reads a text. -/
def string : Decoder String
  | _, .string content => content
  | _, _ => none

/-- Reads the value, unless null is written in its place. -/
def optional (decoder : Decoder α) : Decoder (Option α)
  | _, .null => some none
  | room, written => (decoder room written).map some

/-- Reads an array of any length. -/
def list (decoder : Decoder α) : Decoder (List α)
  | room + 1, .array items => items.mapM (decoder room)
  | _, _ => none

/-- Reads an object of any names. Of several members with one name the last one counts. -/
def named (decoder : Decoder α) : Decoder (Named α)
  | room + 1, .object members => do
    let entries ← members.mapM fun (name, value) => do return (← name, ← decoder room value)
    some (Named.ofList entries)
  | _, _ => none

/-- Reads an array of exactly two parts. -/
def pair (first : Decoder α) (second : Decoder β) : Decoder (α × β)
  | room + 1, .array [one, two] => do return (← first room one, ← second room two)
  | _, _ => none

end Decoder

/-- The members of a record that is being read, and the room within it. -/
structure Record where
  room : Nat
  members : List (String × Written)

namespace Record

/-- Opens a record with these fields. An array has to hold one part per field; of an object the
members with these names are taken, none of them twice. -/
def open? (fields : List String) : Decoder Record
  | room + 1, .array items =>
    if items.length = fields.length then some { room, members := fields.zip items } else none
  | room + 1, .object members => do
    let members ← members.mapM fun member => member.1.map fun name => (name, member.2)
    let known := members.filter fun (name, _) => fields.contains name
    if (known.map Prod.fst).eraseDups.length = known.length then some { room, members := known }
    else none
  | _, _ => none

variable {α : Type}

/-- Reads a field that has to be there. -/
def field (record : Record) (name : String) (decoder : Decoder α) : Option α :=
  (record.members.lookup name).bind (decoder record.room)

/-- Reads a field that may be missing or null. -/
def field? (record : Record) (name : String) (decoder : Decoder α) : Option (Option α) :=
  match record.members.lookup name with
  | none => some none
  | some written => Decoder.optional decoder record.room written

end Record

/-- A choice that is being read: its name, and its payload if one is written. -/
structure Choice where
  room : Nat
  name : String
  payload : Option Written

namespace Choice

/-- Opens a choice. -/
def open? : Decoder Choice
  | room, .string (some name) => some { room, name, payload := none }
  | room + 1, .object [(some name, payload)] => some { room, name, payload := some payload }
  | _, _ => none

variable {α : Type}

/-- The value of a choice that carries none. Null may stand as its payload. -/
def bare (choice : Choice) (value : α) : Option α :=
  match choice.payload with
  | none | some .null => some value
  | some _ => none

/-- Reads the payload of a choice that carries one. -/
def carrying (choice : Choice) (decoder : Decoder α) : Option α :=
  choice.payload.bind (decoder choice.room)

end Choice

/-- Reads the name of one of several choices that carry nothing. -/
def Decoder.oneOf {α : Type} (choices : List (String × α)) : Decoder α :=
  fun room written => do
    let choice ← Choice.open? room written
    choice.bare (← choices.lookup choice.name)

/-- Reads any value. Objects are brought into the order of their names. -/
def decode : Decoder Json
  | _, .null => some .null
  | _, .boolean value => some (.boolean value)
  | _, .number value => value.map fun
    | .integer value => .integer value
    | .double value => .double value
  | _, .string content => content.map .string
  | room + 1, .array items => (items.mapM (decode room)).map .array
  | room + 1, .object members => do
    let entries ← members.mapM fun (name, value) => do return (← name, ← decode room value)
    some (.object (Named.ofList entries))
  | 0, .array _ => none
  | 0, .object _ => none

/-- Reads a value out of a text. -/
def read? {α : Type} (decoder : Decoder α) (text : Text) : Option α :=
  (Written.ofText? text).bind (decoder depthLimit)

/-- Reads a value out of a string. -/
def readString? {α : Type} (decoder : Decoder α) (text : String) : Option α :=
  (Written.ofString? text).bind (decoder depthLimit)

/-- Reads a value out of a structured one, which may nest as it likes. -/
def readValue? {α : Type} (decoder : Decoder α) (value : Json) : Option α :=
  decoder value.depth value.written

end Rankwise.Json

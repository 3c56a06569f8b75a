import Rankwise.Json
import Rankwise.Json.Token

/-!
# Texts as they are written

The tree of a JSON text before anything is read out of it. A number may be too large for any value,
and a string may have no content; both matter only to who wants to read them. Members of an object
stand in their order, repeated names included.

The tree is built from the tokens by a machine with an explicit stack of the arrays and objects that
are open, so any nesting can be taken in; how deep a reader may go is the reader's affair.
-/

namespace Rankwise.Json

/-- A JSON text as it is written. -/
inductive Written where
  | null
  | boolean (value : Bool)
  | number (value : Option Number)
  | string (content : Option String)
  | array (items : List Written)
  | object (members : List (Option String × Written))
deriving Repr

namespace Written

/-- An array or object that is still open, the last of its parts first. -/
inductive Opened where
  | array (items : List Written)
  /-- An object with the name of the member whose value comes next. -/
  | object (members : List (Option String × Written)) (name : Option String)

/-- What may come next. -/
inductive Expected where
  | value
  /-- A value, or the end of the array that was just opened. -/
  | firstItem
  /-- A name, or the end of the object that was just opened. -/
  | firstName (members : List (Option String × Written))
  /-- A name, behind a comma. -/
  | name (members : List (Option String × Written))
  /-- A colon behind a name. -/
  | colon (members : List (Option String × Written)) (name : Option String)
  /-- A comma or the end, behind a complete part. -/
  | more
  /-- Nothing: the text is complete. -/
  | nothing (value : Written)

/-- The machine: what is open, the innermost first, and what may come next. Behind the name of a
member the object is not on the stack but with what is expected. -/
structure Builder where
  opened : List Opened := []
  expected : Expected := .value

namespace Builder

/-- Puts a complete value where it belongs. -/
def place (opened : List Opened) (value : Written) : Builder :=
  match opened with
  | [] => { expected := .nothing value }
  | .array items :: rest => { opened := .array (value :: items) :: rest, expected := .more }
  | .object members name :: rest =>
    { opened := .object ((name, value) :: members) none :: rest, expected := .more }

/-- The step from the first token of a value. -/
def begin (opened : List Opened) : Token → Option Builder
  | .null => some (place opened .null)
  | .boolean value => some (place opened (.boolean value))
  | .number numeral => some (place opened (.number numeral.value?))
  | .string content => some (place opened (.string content))
  | .openArray => some { opened := .array [] :: opened, expected := .firstItem }
  | .openObject => some { opened, expected := .firstName [] }
  | _ => none

/-- One step of the machine. -/
def step (builder : Builder) (token : Token) : Option Builder :=
  match builder.expected, token, builder.opened with
  | .firstItem, .closeArray, .array items :: rest => some (place rest (.array items.reverse))
  | .value, token, opened | .firstItem, token, opened => begin opened token
  | .firstName members, .closeObject, opened => some (place opened (.object members.reverse))
  | .firstName members, .string name, opened | .name members, .string name, opened =>
    some { opened, expected := .colon members name }
  | .colon members name, .colon, opened =>
    some { opened := .object members name :: opened, expected := .value }
  | .more, .comma, .array items :: rest =>
    some { opened := .array items :: rest, expected := .value }
  | .more, .closeArray, .array items :: rest => some (place rest (.array items.reverse))
  | .more, .comma, .object members _ :: rest => some { opened := rest, expected := .name members }
  | .more, .closeObject, .object members _ :: rest =>
    some (place rest (.object members.reverse))
  | _, _, _ => none

/-- The value, if the text is complete. -/
def finish (builder : Builder) : Option Written :=
  match builder.expected with
  | .nothing value => some value
  | _ => none

end Builder

/-- The tree of a sequence of tokens. -/
def ofTokens? (tokens : List Token) : Option Written :=
  (tokens.foldlM Builder.step {}).bind Builder.finish

/-- The tree of a text, or `none` if the text is not JSON. -/
def ofText? (text : Text) : Option Written :=
  (tokens? text).bind ofTokens?

/-- The tree of a string. -/
def ofString? (text : String) : Option Written :=
  ofText? (text.toList.map some)

end Written

mutual

/-- The tree of a value, from which something else can be read. -/
def written : Json → Written
  | null => .null
  | boolean value => .boolean value
  | integer value => .number (some (.integer value))
  | double value => .number (some (.double value))
  | string value => .string (some value)
  | array items => .array (writtenItems items)
  | object members => .object (writtenMembers members)

/-- The trees of the items. -/
def writtenItems : List Json → List Written
  | [] => []
  | item :: rest => written item :: writtenItems rest

/-- The trees of the members. -/
def writtenMembers : List (String × Json) → List (Option String × Written)
  | [] => []
  | (name, value) :: rest => (some name, written value) :: writtenMembers rest

end

end Rankwise.Json

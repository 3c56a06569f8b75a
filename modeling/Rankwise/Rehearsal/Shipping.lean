import Rankwise.Rehearsal.Request
import Rankwise.Rehearsal.Slots
import Rankwise.Wire.Frame

/-!
# Arguments in requests

How the arguments of calls are described in requests: an object whose only name is the kind of the
argument. Frames that were put aside are meant by the names of their slots.
-/

namespace Rankwise.Rehearsal

open Json (Decoder)

/-- The frame in a slot. -/
def Slots.frameIn (slots : Slots) (name : String) : Asked Frame :=
  match slots.frames.get? name with
  | some frame => .ok frame
  | none => .misuse ("no frame in slot " ++ name)

/-- A table of a context. -/
def contextTableOf (slots : Slots) : Json → Asked ContextTable
  | .object [("path", path)] => do return .path (← reading Decoder.string path)
  | .object [("data", table)] => do return .data (← reading Batch.decode table)
  | .object [("local", table)] => do return .frame (.collected (← reading Batch.decode table))
  | .object [("frame", name)] => do return .frame (← slots.frameIn (← reading Decoder.string name))
  | _ => .error .unreadable

/-- An argument that contains no others. -/
def plainArgumentOf (slots : Slots) (kind : String) (content : Json) : Asked Argument := do
  match kind with
  | "value" => return .value (← reading Value.decode content)
  | "table" => return .value (.table (← reading Batch.decode content))
  | "local" => return .frame (.collected (← reading Batch.decode content))
  | "frame" => return .frame (← slots.frameIn (← reading Decoder.string content))
  | "id_of" =>
    let frame ← slots.frameIn (← reading Decoder.string content)
    return .value ((frame.resultId?.map fun id => .scalar (.utf8 id.text)).getD .null)
  | "context" =>
    let tables ← (← need (Decoder.named anything) content "tables").mapM fun (name, table) => do
      return (name, ← contextTableOf slots table)
    return .context {
      tables, catalog := ← want Decoder.string content "catalog"
      timeZone := ← want Decoder.string content "default_tz" }
  | other => .misuse ("unknown argument " ++ other)

mutual

/-- The argument that is described. -/
def argumentOf (slots : Slots) : Json → Asked Argument
  | .object [("tuple", .array items)] => do return .tuple (← argumentsOf slots items)
  | .object [(kind, content)] => plainArgumentOf slots kind content
  | _ => .error .unreadable

/-- The arguments that are described. -/
def argumentsOf (slots : Slots) : List Json → Asked (List Argument)
  | [] => .ok []
  | item :: rest => do return (← argumentOf slots item) :: (← argumentsOf slots rest)

end

mutual

/-- The frames that an argument took out of slots, as they are after the call, with the names of the
slots. -/
def passed : Json → Argument → List (String × Frame)
  | .object [("frame", .string slot)], .frame frame => [(slot, frame)]
  | .object [("tuple", .array items)], .tuple found => passedAll items found
  | _, _ => []

/-- The frames that several arguments took out of slots. -/
def passedAll : List Json → List Argument → List (String × Frame)
  | item :: rest, found :: others => passed item found ++ passedAll rest others
  | _, _ => []

end

/-- How the argument of a request is shipped, with the parameters whose tables are sent. -/
def shipped (isLive : Handle → Bool) (request : Json) (argument : Argument) :
    Asked (Shipment × List String) := do
  let flags ← wantTexts request "flags"
  let replicated ← wantOr false Decoder.boolean request "replicated"
  (Shipment.ofArgument isLive (← needText request "name") replicated argument).run flags

/-- What is told of how an argument is shipped. -/
def shippedAnswer (argument : Argument) (shipment : Shipment) (flags : List String) :
    List (String × Json) :=
  let skeleton := (Shipment.skeleton argument shipment).map Skeleton.encode
  [("spec", shipment.encode), ("flags", Json.strings flags),
    ("wire", Asked.told (Asked.ofExcept skeleton))]

end Rankwise.Rehearsal

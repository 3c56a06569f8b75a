import Rankwise.Failure
import Rankwise.Json

/-!
# Failures as structured values

How failures are told to programs. A failure is an object with its class, its message, its fields if
it has any, and its cause if it has one, in the same form. Of a foreign error only its presence is
told.
-/

namespace Rankwise.Failure

/-- Fields as pairs, in order: a key may occur more than once. -/
def encodeFields (fields : List (String × String)) : Json :=
  .array (fields.map fun (key, value) => Json.strings [key, value])

/-- A report with what was told already about its cause. -/
def encodeReport (report : Report) (cause : Option Json) : Json :=
  let fields := if report.fields.isEmpty then none else some (encodeFields report.fields)
  .object ([("error", .string report.kind.name), ("message", .string report.message)]
    ++ (fields.map ("fields", ·)).toList ++ (cause.map ("cause", ·)).toList)

/-- The reports of a failure from the last cause on, in one another. -/
def encodeCauses (foreign : Option Json) : List Report → Option Json
  | [] => foreign
  | report :: rest => some (encodeReport report (encodeCauses foreign rest))

/-- The failure with everything behind it. -/
def encode (failure : Failure) : Json :=
  encodeReport failure.toReport
    (encodeCauses (failure.origin.map fun _ => .string "foreign") failure.causes)

end Rankwise.Failure

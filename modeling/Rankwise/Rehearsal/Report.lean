import Rankwise.Rehearsal.RecordingEngine
import Rankwise.Rehearsal.Script
import Rankwise.Wire.Message
import Rankwise.Wire.Summary
import Rankwise.Wire.Value

/-!
# Reports of rehearsals

What was written down during a rehearsal, as structured values: what an engine was asked, and what
the coordinator did.
-/

namespace Rankwise.Rehearsal

/-- What an engine was asked. -/
def EngineEvent.encode : EngineEvent → Json
  | refused name output arguments =>
    .tagged "refused" [.string name, .string output.text,
      .array (EngineArgument.encodeItems arguments)]
  | created handle name output arguments =>
    .tagged "create" [.natural handle, .string name, .string output.text,
      .array (EngineArgument.encodeItems arguments)]
  | optimized handle => .tagged "optimize" [.natural handle]
  | executed handle kind schema =>
    .tagged "execute" [.natural handle, .string kind.text, .string schema.text]

/-- What the coordinator did. -/
def Event.encode : Event → Json
  | launched request =>
    .object [("launch", .natural request.workers),
      ("env", Named.encode .string request.environment),
      ("verbosity", .natural request.verbosity)]
  | sent rank message => .array [.natural rank, message.encode]
  | closed => .string "shutdown"

end Rankwise.Rehearsal

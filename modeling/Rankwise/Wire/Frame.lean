import Rankwise.Group.Spawner
import Rankwise.Wire.Message

/-!
# Frames as structured values

What is told to programs about frames, about answers that hold frames, and about how arguments are
shipped. The table of a frame is not part of it.
-/

namespace Rankwise

namespace Partitioned

/-- What the coordinator knows about the result. -/
def encode (found : Partitioned) : Json :=
  .object [("result_id", found.id.encode), ("schema", found.schema.encode),
    ("partition_rows", .array (found.partitionRows.map Json.natural))]

end Partitioned

namespace Residency

/-- Where the data is, and under which name. -/
def encode : Residency → Json
  | held => Json.strings ["local"]
  | resident id => Json.strings ["resident", id.text]
  | stale id => Json.strings ["stale", id.text]

end Residency

namespace Frame

/-- What is known about a frame without looking at its rows. -/
def summary (isLive : Handle → Bool) (frame : Frame) : Json :=
  .object [("residency", (frame.residency isLive).encode),
    ("distributed", .boolean frame.isDistributed), ("rows", .natural frame.rows),
    ("schema", .string frame.schema.text),
    ("metadata", .ofOption Partitioned.encode frame.partitioned?)]

end Frame

namespace Answer

mutual

/-- An answer with summaries of its frames. -/
def summary (isLive : Handle → Bool) : Answer → Json
  | value found => .choice "value" found.encode
  | frame found => .choice "frame" (found.summary isLive)
  | tuple items => .choice "tuple" (.array (summaries isLive items))
  | map entries => .choice "map" (.object (entrySummaries isLive entries))

/-- The items of a tuple with summaries of their frames. -/
def summaries (isLive : Handle → Bool) : List Answer → List Json
  | [] => []
  | item :: rest => summary isLive item :: summaries isLive rest

/-- The entries of a map with summaries of their frames. -/
def entrySummaries (isLive : Handle → Bool) : List (String × Answer) → List (String × Json)
  | [] => []
  | (name, entry) :: rest => (name, summary isLive entry) :: entrySummaries isLive rest

end

end Answer

namespace Shipment

mutual

/-- How an argument is shipped. -/
def encode : Shipment → Json
  | asIs => .string "PassThrough"
  | transfer found => .choice "Transfer" found.encode
  | tuple items => .choice "Tuple" (.array (encodeItems items))
  | map entries => .choice "Map" (.object (encodeEntries entries))
  | context found => .choice "Context" found.encode

/-- How the items of a tuple are shipped. -/
def encodeItems : List Shipment → List Json
  | [] => []
  | item :: rest => encode item :: encodeItems rest

/-- How the entries of a map are shipped. -/
def encodeEntries : List (String × Shipment) → List (String × Json)
  | [] => []
  | (name, entry) :: rest => (name, encode entry) :: encodeEntries rest

end

end Shipment

end Rankwise

import Rankwise.Group.Dialogue
import Rankwise.Group.Shipment

/-!
# The connection to a group

All talk to the workers of a group goes through its connection. A group whose connection has failed
once, in sending or in receiving, is *broken*: from then on it cannot be used, since nobody knows
which messages have arrived. It can still be shut down.
-/

namespace Rankwise

/-- A launched group of workers. -/
structure Group where
  link : Link
  /-- The number of workers. -/
  size : Nat
  /-- Later groups of a spawner have larger generations. -/
  generation : Nat
  /-- The connection has failed. -/
  broken : Bool := false
  /-- The group was ended. -/
  ended : Bool := false
deriving DecidableEq, Repr

/-- Talk with the workers of a group. -/
abbrev Talk (α : Type) := ExceptT Failure (StateT Group Dialogue) α

namespace Group

/-- Whether the group can no longer be used. -/
def isUnusable (group : Group) : Bool := group.ended || group.broken

/-- Asks something of the outside about the connection of the group. -/
def ask {α : Type} (request : Link → (Except Failure α → Dialogue (Except Failure α)) →
    Dialogue (Except Failure α)) : Talk α :=
  ExceptT.mk fun group => do
    let answer ← request group.link .done
    return (answer, group)

/-- Marks the group as broken if the talk fails. -/
def watch {α : Type} (talk : Talk α) : Talk α :=
  ExceptT.mk fun group => do
    let (answer, group) ← talk.run group
    match answer with
    | .ok value => return (.ok value, group)
    | .error failure => return (.error failure, { group with broken := true })

/-- Sends a message to a rank. -/
def send (rank : Nat) (message : Message) : Talk Unit :=
  watch (ask fun link next => .send link rank message next)

/-- Awaits the next message from a rank. -/
def receive (rank : Nat) : Talk Message :=
  watch (ask fun link next => .receive link rank next)

/-- Closes the connection and waits for the workers to end. -/
def shutdown : Talk Unit := ask fun link next => .shutdown link next

/-- Sends a message to every rank. -/
def broadcast (message : Message) : Talk Unit := do
  (List.range (← get).size).forM fun rank => send rank message

/-- There is not one message per rank. -/
def notOnePerRank (messages size : Nat) : Failure where
  kind := .internal
  message := "Scatter requires one frame per rank"
  fields := [("frames", toString messages), ("size", toString size)]

/-- Sends each rank a message of its own. -/
def scatter (messages : List Message) : Talk Unit := do
  let size := (← get).size
  if messages.length ≠ size then throw (notOnePerRank messages.length size)
  messages.zipIdx.forM fun (message, rank) => send rank message

/-- Awaits one message from every rank. -/
def gather : Talk (List Message) := do
  (List.range (← get).size).mapM receive

/-! The data that goes with the skeletons of arguments. -/

/-- Sends a table to the ranks. -/
def sendTable (table : Batch) : Transfer → Talk Unit
  | .broadcast => broadcast (.data table)
  | .scatter => do
    let blocks ← ExceptT.mk (pure (table.splitEven (← get).size))
    scatter (blocks.map Message.data)
  | .lazy => throw { kind := .internal, message := "Cannot send a table as a lazy reference" }

/-- Sends a frame to the ranks: its table, or its name if the workers hold it. -/
def sendFrame (frame : Frame) (transfer : Transfer) : Talk Unit :=
  match transfer, frame with
  | .lazy, .distributed _ handle => broadcast (.resultId handle.id)
  | .lazy, .collected _ =>
    throw { kind := .internal, message := "Lazy argument without a result id" }
  | other, .collected table => sendTable table other
  | _, .distributed _ _ => throw Shipment.mismatch

mutual

/-- Sends the tables of a value that are replaced in its skeleton. -/
def sendValueData : Value → Shipment → Talk Unit
  | _, .asIs => return
  | .table table, .transfer transfer => sendTable table transfer
  | .tuple items, .tuple shipments => sendValuesData items shipments
  | .map entries, .map shipments => sendEntriesData entries shipments
  | _, _ => throw Shipment.mismatch

/-- Sends the tables of the items of a tuple. -/
def sendValuesData : List Value → List Shipment → Talk Unit
  | item :: items, shipment :: shipments => do
    sendValueData item shipment
    sendValuesData items shipments
  | _, _ => return

/-- Sends the tables of the entries of a map. -/
def sendEntriesData : List (String × Value) → List (String × Shipment) → Talk Unit
  | [], _ => return
  | (name, value) :: rest, shipments => do
    sendValueData value (← ExceptT.mk (pure (Shipment.entry? shipments name)))
    sendEntriesData rest shipments

end

/-- Sends a table of a context. -/
def sendContextTable (tables : Named ContextTable) (name : String) : TableShipment → Talk Unit
  | .path _ => return
  | .placeholder transfer =>
    match tables.get? name with
    | some (.data table) => sendTable table transfer
    | some (.frame frame) => sendFrame frame transfer
    | _ => throw (Shipment.mismatch.withField "table" name)

mutual

/-- Sends the tables of an argument that are replaced in its skeleton. -/
def sendData : Argument → Shipment → Talk Unit
  | _, .asIs => return
  | .frame frame, .transfer transfer => sendFrame frame transfer
  | .value value, .transfer transfer => sendValueData value (.transfer transfer)
  | .tuple items, .tuple shipments => sendAllData items shipments
  | .value value, .tuple shipments => sendValueData value (.tuple shipments)
  | .value value, .map shipments => sendValueData value (.map shipments)
  | .context found, .context shipment =>
    shipment.tables.forM fun (name, table) => sendContextTable found.tables name table
  | _, _ => throw Shipment.mismatch

/-- Sends the tables of several arguments, in order. -/
def sendAllData : List Argument → List Shipment → Talk Unit
  | item :: items, shipment :: shipments => do
    sendData item shipment
    sendAllData items shipments
  | _, _ => return

end

end Group

end Rankwise

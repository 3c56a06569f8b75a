import Rankwise.Proofs.Digits
import Rankwise.Proofs.ReadingValues
import Rankwise.Wire.Message

/-!
# Messages are read back as they were written

`Fits` says what holds of every message by the types of its parts, and of the structured values that
are passed through it asks that they hold no doubles.
-/

namespace Rankwise

open Json (Reads Record Choice Decoder Written)

/-- The identifier of a call has at most 128 bits. -/
def CallId.Fits (id : CallId) : Prop := id.number < 2 ^ 128

/-- A call id is read back as itself. -/
theorem CallId.reads (id : CallId) (fits : id.Fits) : Reads decode id.encode id :=
  (Json.reads_string id.text).andThen _ _ (id.ofText?_text fits)

/-- A failure is read back as itself, with or without a rank. -/
theorem RankFailure.reads (failure : RankFailure) : Reads decode failure.encode failure := by
  apply Json.reads_record ["kind", "message", "fields"] (by decide) _ rfl
  refine .field "kind" rfl (Json.reads_string failure.kind) ?_
  refine .field "message" rfl (Json.reads_string failure.message) ?_
  exact .field "fields" rfl (Json.reads_items failure.fields fun entry _ =>
    Json.reads_pair (Json.reads_string entry.1) (Json.reads_string entry.2)) .done

/-- The way a table travels is read back as itself. -/
theorem Transfer.reads (transfer : Transfer) : Reads decode transfer.encode transfer := by
  cases transfer <;> exact Json.reads_oneOf _ _ _ rfl

/-- The shipment of a table is read back as itself. -/
theorem TableShipment.reads (shipment : TableShipment) :
    Reads decode shipment.encode shipment := by
  cases shipment with
  | path location =>
    exact Json.reads_choice "Path" (fun _ _ => rfl) ((Json.reads_string location).andThen _ _ rfl)
  | placeholder transfer =>
    exact Json.reads_choice "Placeholder" (fun _ _ => rfl) (transfer.reads.andThen _ _ rfl)

namespace ContextShipment

/-- The tables stand in the order of their names. -/
def IsOrdered (shipment : ContextShipment) : Prop := shipment.tables.Ordered

/-- The shipment of a context is read back, with its tables and its plain data. -/
theorem reads (shipment : ContextShipment) (ordered : shipment.IsOrdered) :
    Reads decode shipment.encode shipment := by
  apply Json.reads_record ["tables", "catalog", "default_tz"] (by decide) _ rfl
  refine .field "tables" rfl (Json.reads_named shipment.tables ordered
    fun entry _ => entry.2.reads) ?_
  refine .text? "catalog" rfl ?_
  exact .text? "default_tz" rfl .done

end ContextShipment

namespace Skeleton

mutual

/-- Sizes are machine words, entries stand in the order of their names, and structured values that
are passed through hold integers alone. -/
def Fits : Skeleton → Prop
  | value found => found.Fits
  | placeholder _ => True
  | tuple items => ItemsFit items
  | map entries => Named.Ordered entries ∧ EntriesFit entries
  | context shipment => shipment.IsOrdered

/-- The items are such skeletons. -/
def ItemsFit : List Skeleton → Prop
  | [] => True
  | item :: rest => Fits item ∧ ItemsFit rest

/-- The entries are such skeletons. -/
def EntriesFit : Named Skeleton → Prop
  | [] => True
  | (_, entry) :: rest => Fits entry ∧ EntriesFit rest

end

/-- The items of a tuple are written one by one. -/
theorem encodeItems_eq (items : List Skeleton) : encodeItems items = items.map encode := by
  induction items with
  | nil => rfl
  | cons item rest inductionHypothesis => rw [encodeItems, inductionHypothesis, List.map_cons]

/-- The entries of a map are written one by one, each under its name. -/
theorem encodeEntries_eq (entries : Named Skeleton) :
    encodeEntries entries = entries.mapValues encode := by
  induction entries with
  | nil => rfl
  | cons entry rest inductionHypothesis =>
    rw [encodeEntries, inductionHypothesis]
    rfl

/-- Skeletons are written as trees whose leaves are shipments. -/
theorem readsTrees : Json.ReadsTrees decode decodeLeaf tuple map where
  leaf room tree choice noTuple noMap opened := by
    match room with
    | 0 =>
      -- Where nothing may be opened, no leaf carries anything, and every leaf of a skeleton does.
      have empty : choice.payload = none := by
        unfold Choice.open? at opened
        split at opened
        · cases opened
          rfl
        · contradiction
        · cases opened
      rw [decode, decodeLeaf]
      split <;> first | rw [Choice.carrying, empty]; rfl | rfl
    | 1 => rw [decode, opened, Option.bind_some]
    | room + 2 =>
      rw [decode, opened, Option.bind_some]
      split
      case h_1 named _ => exact absurd named noTuple
      case h_2 named _ => exact absurd named noMap
      case h_3 => rfl
  tuple _ _ := rfl
  map _ _ := rfl

mutual

/-- A skeleton that fits is read back as itself. -/
theorem reads (skeleton : Skeleton) (fits : skeleton.Fits) :
    Reads decode skeleton.encode skeleton := by
  cases skeleton with
  | value found =>
    exact readsTrees.reads_leaf "Value" (by decide) (fun _ _ => rfl)
      ((found.reads fits).andThen _ _ rfl)
  | placeholder transfer =>
    exact readsTrees.reads_leaf "Placeholder" (by decide) (fun _ _ => rfl)
      (transfer.reads.andThen _ _ rfl)
  | tuple items =>
    rw [encode, encodeItems_eq]
    exact readsTrees.reads_tuple (readsItems items fits)
  | map entries =>
    rw [encode, encodeEntries_eq]
    exact readsTrees.reads_map entries fits.1 (readsEntries entries fits.2)
  | context shipment =>
    exact readsTrees.reads_leaf "Context" (by decide) (fun _ _ => rfl)
      ((shipment.reads fits).andThen _ _ rfl)

/-- So are the items of a tuple. -/
theorem readsItems (items : List Skeleton) (fit : ItemsFit items) :
    List.Forall₂ (Reads decode) (items.map encode) items := by
  cases items with
  | nil => exact .nil
  | cons item rest => exact .cons (reads item fit.1) (readsItems rest fit.2)

/-- So are the entries of a map. -/
theorem readsEntries (entries : Named Skeleton) (fit : EntriesFit entries) :
    ∀ entry ∈ entries, Reads decode (encode entry.2) entry.2 := by
  cases entries with
  | nil => exact nofun
  | cons entry rest =>
    exact List.forall_mem_cons.mpr ⟨reads entry.2 fit.1, readsEntries rest fit.2⟩

end

end Skeleton

namespace PartitionMeta

/-- The number of rows is a machine word. -/
def Fits (partition : PartitionMeta) : Prop := partition.rows < 2 ^ 64

/-- What is told of a partition is read back as itself. -/
theorem reads (partition : PartitionMeta) (fits : partition.Fits) :
    Reads decode partition.encode partition := by
  apply Json.reads_record ["num_rows", "schema"] (by decide) _ rfl
  refine .field "num_rows" rfl (Json.reads_size partition.rows fits) ?_
  exact .field "schema" rfl partition.schema.reads .done

end PartitionMeta

namespace Message

/-- Sizes are machine words and identifiers have at most 128 bits, entries stand in the order of
their names, and structured values that are passed through hold integers alone. -/
def Fits : Message → Prop
  | command _ | resultId _ | completed | status _ | proceed _ => True
  | environment found => found.Ordered
  | arguments positional keyword =>
    Skeleton.ItemsFit positional ∧ keyword.Ordered ∧ Skeleton.EntriesFit keyword
  | data batch => batch.Fits
  | computation _ call => call.Fits
  | outputShape shape => shape.IsOrdered
  | value found => found.Fits
  | partitionMeta found => ∀ partition ∈ found, partition.Fits
  | partition found => ∀ batch ∈ found, batch.Fits

/-- The message that hands over the environment is read back. -/
theorem reads_environment (found : Named String) (ordered : found.Ordered) :
    Reads decodeEnvironment (.object [("vars", Named.encode .string found)])
      (environment found) := by
  apply Json.reads_record ["vars"] (by decide) _ rfl
  exact .field "vars" rfl
    (Json.reads_named found ordered fun entry _ => Json.reads_string entry.2) .done

/-- The message that hands over the arguments is read back. -/
theorem reads_arguments (positional : List Skeleton) (keyword : Named Skeleton)
    (fit : Skeleton.ItemsFit positional)
    (fitToo : keyword.Ordered ∧ Skeleton.EntriesFit keyword) :
    Reads decodeArguments
      (.object [("args", .array (positional.map Skeleton.encode)),
        ("kwargs", Named.encode Skeleton.encode keyword)]) (arguments positional keyword) := by
  apply Json.reads_record ["args", "kwargs"] (by decide) _ rfl
  refine .field "args" rfl (Json.reads_list (Skeleton.readsItems positional fit)) ?_
  exact .field "kwargs" rfl
    (Json.reads_named keyword fitToo.1 (Skeleton.readsEntries keyword fitToo.2)) .done

/-- The message that starts a computation is read back. -/
theorem reads_computation (description : Computation) (call : CallId) (fits : call.Fits) :
    Reads decodeComputation
      (.object [("computation", description.encode), ("call_id", call.encode)])
      (computation description call) := by
  apply Json.reads_record ["computation", "call_id"] (by decide) _ rfl
  refine .field "computation" rfl description.reads ?_
  exact .field "call_id" rfl (call.reads fits) .done

/-- Every message that fits is read back as itself. -/
theorem reads (message : Message) (fits : message.Fits) : Reads decode message.encode message := by
  cases message with
  | command order =>
    have small : order.tag < 2 ^ 8 := by cases order <;> decide
    refine Json.reads_choice "Command" (fun _ _ => rfl) ((Json.reads_word 8 _ small).andThen _ _ ?_)
    rw [Command.ofTag?_tag]
    rfl
  | environment found =>
    exact Json.reads_choice "Env" (fun _ _ => rfl) (reads_environment found fits)
  | arguments positional keyword =>
    exact Json.reads_choice "Args" (fun _ _ => rfl)
      (reads_arguments positional keyword fits.1 fits.2)
  | data batch =>
    exact Json.reads_choice "Data" (fun _ _ => rfl) ((batch.reads fits).andThen _ _ rfl)
  | resultId id =>
    exact Json.reads_choice "ResultId" (fun _ _ => rfl) (id.reads.andThen _ _ rfl)
  | computation description call =>
    exact Json.reads_choice "Computation" (fun _ _ => rfl)
      (reads_computation description call fits)
  | completed => exact Json.reads_bare "Completed" _ _ fun _ => rfl
  | status failure =>
    have read := Json.reads_optional (fun found (_ : found ∈ failure) => found.reads)
      fun _ _ same => by cases same
    exact Json.reads_choice "Status" (fun _ _ => rfl) (read.andThen _ _ rfl)
  | proceed goOn =>
    exact Json.reads_choice "Proceed" (fun _ _ => rfl) ((Json.reads_boolean goOn).andThen _ _ rfl)
  | outputShape shape =>
    exact Json.reads_choice "OutputTag" (fun _ _ => rfl) ((shape.reads fits).andThen _ _ rfl)
  | value found =>
    exact Json.reads_choice "Value" (fun _ _ => rfl) ((found.reads fits).andThen _ _ rfl)
  | partitionMeta found =>
    have read := Json.reads_optional (fun partition (here : partition ∈ found) =>
      PartitionMeta.reads partition (fits partition here)) fun _ _ same => by cases same
    exact Json.reads_choice "PartitionMeta" (fun _ _ => rfl) (read.andThen _ _ rfl)
  | partition found =>
    have read := Json.reads_optional (fun batch (here : batch ∈ found) =>
      Batch.reads batch (fits batch here)) fun _ _ same => by cases same
    exact Json.reads_choice "Partition" (fun _ _ => rfl) (read.andThen _ _ rfl)

end Message

end Rankwise

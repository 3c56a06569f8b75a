import Rankwise.Group.Worker
import Rankwise.Group.Call

/-!
# What each rank is to receive of the arguments

Said without any regard to shipments and messages: of a table that the coordinator holds, a rank
receives all if the parameter is replicated and its block otherwise; in the place of a frame that
lies on the workers it finds the partition that it stores itself, or null if it stores none. All
else reaches every rank as it is. `parcels` lists the messages that bring this to a rank,
`mentioned` the results that the rank has to store already and `named` those of them whose
partitions it reports after the call.

Names in a map and in a context are distinct; `IsOrdered` says so for all parts of an argument.
-/

namespace Rankwise

namespace Batch

/-- Block `index` when the rows are split into `count` blocks. -/
def block (batch : Batch) (count index : Nat) : Batch :=
  batch.slice (blockStart batch.rows count index) (blockSize batch.rows count index)

/-- A table is split into its blocks, unless there are to be none. -/
theorem splitEven_eq (batch : Batch) (count : Nat) (positive : 0 < count) :
    batch.splitEven count = .ok ((List.range count).map (batch.block count)) :=
  if_neg (Nat.pos_iff_ne_zero.mp positive)

/-- What a rank receives of a table. -/
def portion (replicated : Bool) (size rank : Nat) (batch : Batch) : Batch :=
  if replicated then batch else batch.block size rank

end Batch

namespace Frame

/-- How a frame is shipped that is not stale. -/
def transfer (replicated : Bool) : Frame → Transfer
  | collected _ => Shipment.transferOf replicated
  | distributed _ _ => .lazy

/-- The messages that bring a frame to a rank. -/
def parcels (replicated : Bool) (size rank : Nat) : Frame → List Message
  | collected table => [.data (table.portion replicated size rank)]
  | distributed _ handle => [.resultId handle.id]

/-- What a rank finds in the place of a frame. -/
def portion (replicated : Bool) (size rank : Nat) (store : ResultStore) : Frame → Option Batch
  | collected table => some (table.portion replicated size rank)
  | distributed _ handle => store.find? handle.id

/-- The result that stands for the frame. -/
def mentioned : Frame → List ResultId
  | collected _ => []
  | distributed _ handle => [handle.id]

end Frame

namespace Value

mutual

/-- Entries in the maps of the value stand in the order of their names, each name once. -/
def IsOrdered : Value → Prop
  | tuple items => AreOrdered items
  | map entries => Named.Ordered entries ∧ EntriesOrdered entries
  | _ => True

/-- Entries in the maps of the items stand in the order of their names. -/
def AreOrdered : List Value → Prop
  | [] => True
  | item :: rest => IsOrdered item ∧ AreOrdered rest

/-- Entries in the maps of the entries stand in the order of their names. -/
def EntriesOrdered : List (String × Value) → Prop
  | [] => True
  | (_, entry) :: rest => IsOrdered entry ∧ EntriesOrdered rest

end

mutual

/-- How the value is shipped. -/
def shipment (replicated : Bool) : Value → Shipment
  | table _ => .transfer (Shipment.transferOf replicated)
  | tuple items =>
    if (shipments replicated items).all Shipment.isAsIs then .asIs
    else .tuple (shipments replicated items)
  | map entries =>
    if (entryShipments replicated entries).all fun entry => entry.2.isAsIs then .asIs
    else .map (entryShipments replicated entries)
  | _ => .asIs

/-- How the items are shipped. -/
def shipments (replicated : Bool) : List Value → List Shipment
  | [] => []
  | item :: rest => shipment replicated item :: shipments replicated rest

/-- How the entries are shipped. -/
def entryShipments (replicated : Bool) : List (String × Value) → List (String × Shipment)
  | [] => []
  | (name, entry) :: rest => (name, shipment replicated entry) :: entryShipments replicated rest

end

mutual

/-- The messages that bring the value to a rank, besides its skeleton. -/
def parcels (replicated : Bool) (size rank : Nat) : Value → List Message
  | table batch => [.data (batch.portion replicated size rank)]
  | tuple items => parcelsOf replicated size rank items
  | map entries => entryParcels replicated size rank entries
  | _ => []

/-- The messages that bring the items to a rank. -/
def parcelsOf (replicated : Bool) (size rank : Nat) : List Value → List Message
  | [] => []
  | item :: rest => parcels replicated size rank item ++ parcelsOf replicated size rank rest

/-- The messages that bring the entries to a rank. -/
def entryParcels (replicated : Bool) (size rank : Nat) : List (String × Value) → List Message
  | [] => []
  | (_, entry) :: rest =>
    parcels replicated size rank entry ++ entryParcels replicated size rank rest

end

mutual

/-- What a rank receives of the value. -/
def portion (replicated : Bool) (size rank : Nat) : Value → Value
  | table batch => table (batch.portion replicated size rank)
  | tuple items => tuple (portions replicated size rank items)
  | map entries => map (entryPortions replicated size rank entries)
  | other => other

/-- What a rank receives of the items. -/
def portions (replicated : Bool) (size rank : Nat) : List Value → List Value
  | [] => []
  | item :: rest => portion replicated size rank item :: portions replicated size rank rest

/-- What a rank receives of the entries. -/
def entryPortions (replicated : Bool) (size rank : Nat) :
    List (String × Value) → List (String × Value)
  | [] => []
  | (name, entry) :: rest =>
    (name, portion replicated size rank entry) :: entryPortions replicated size rank rest

end

end Value

namespace ContextTable

/-- How the table is shipped. -/
def shipment (replicated : Bool) : ContextTable → TableShipment
  | path found => .path found
  | data _ => .placeholder (Shipment.transferOf replicated)
  | frame found => .placeholder (found.transfer replicated)

/-- The messages that bring the table to a rank. -/
def parcels (replicated : Bool) (size rank : Nat) : ContextTable → List Message
  | path _ => []
  | data table => [.data (table.portion replicated size rank)]
  | frame found => found.parcels replicated size rank

/-- What a rank finds in the place of the table. -/
def portion (replicated : Bool) (size rank : Nat) (store : ResultStore) :
    ContextTable → Option TableSource
  | path found => some (.path found)
  | data table => some (.data (table.portion replicated size rank))
  | frame found => (found.portion replicated size rank store).map .data

/-- The result that stands for the table. -/
def mentioned : ContextTable → List ResultId
  | frame found => found.mentioned
  | _ => []

end ContextTable

namespace Argument

mutual

/-- Names in the maps and contexts of the argument are distinct. -/
def IsOrdered : Argument → Prop
  | value found => found.IsOrdered
  | frame _ => True
  | tuple items => AreOrdered items
  | context found => Named.Ordered found.tables

/-- Names in the maps and contexts of the items are distinct. -/
def AreOrdered : List Argument → Prop
  | [] => True
  | item :: rest => IsOrdered item ∧ AreOrdered rest

end

mutual

/-- How the argument is shipped. -/
def shipment (replicated : Bool) : Argument → Shipment
  | value found => found.shipment replicated
  | frame found => .transfer (found.transfer replicated)
  | tuple items => .tuple (shipments replicated items)
  | context found =>
    if found.tables.isEmpty then .asIs
    else .context {
      tables := found.tables.mapValues (ContextTable.shipment replicated)
      catalog := found.catalog
      timeZone := found.timeZone }

/-- How the items are shipped. -/
def shipments (replicated : Bool) : List Argument → List Shipment
  | [] => []
  | item :: rest => shipment replicated item :: shipments replicated rest

end

mutual

/-- The messages that bring the argument to a rank, besides its skeleton. -/
def parcels (replicated : Bool) (size rank : Nat) : Argument → List Message
  | value found => found.parcels replicated size rank
  | frame found => found.parcels replicated size rank
  | tuple items => parcelsOf replicated size rank items
  | context found => found.tables.flatMap fun entry => entry.2.parcels replicated size rank

/-- The messages that bring the items to a rank. -/
def parcelsOf (replicated : Bool) (size rank : Nat) : List Argument → List Message
  | [] => []
  | item :: rest => parcels replicated size rank item ++ parcelsOf replicated size rank rest

end

mutual

/-- What a rank receives of the argument. -/
def portion (replicated : Bool) (size rank : Nat) (store : ResultStore) : Argument → Value
  | value found => found.portion replicated size rank
  | frame found => ((found.portion replicated size rank store).map Value.table).getD .null
  | tuple items => .tuple (portions replicated size rank store items)
  | context found => .context {
      tables := found.tables.filterMap fun entry =>
        (entry.2.portion replicated size rank store).map fun source => (entry.1, source)
      catalog := found.catalog
      timeZone := found.timeZone }

/-- What a rank receives of the items. -/
def portions (replicated : Bool) (size rank : Nat) (store : ResultStore) :
    List Argument → List Value
  | [] => []
  | item :: rest => portion replicated size rank store item :: portions replicated size rank store rest

end

mutual

/-- The results that stand for parts of the argument, in order. -/
def mentioned : Argument → List ResultId
  | value _ => []
  | frame found => found.mentioned
  | tuple items => mentionedIn items
  | context found => found.tables.flatMap fun entry => entry.2.mentioned

/-- The results that stand for parts of the items, in order. -/
def mentionedIn : List Argument → List ResultId
  | [] => []
  | item :: rest => mentioned item ++ mentionedIn rest

end

mutual

/-- The results that stand for frames of the argument, in order. Tables of contexts do not count. -/
def named : Argument → List ResultId
  | frame found => found.mentioned
  | tuple items => namedIn items
  | _ => []

/-- The results that stand for frames of the items, in order. -/
def namedIn : List Argument → List ResultId
  | [] => []
  | item :: rest => named item ++ namedIn rest

end

end Argument

namespace Shipment

variable (isLive : Handle → Bool) (parameter : String) (replicated : Bool)

/-- Two looks that go well one after the other go well as one. -/
theorem Looking.bind {α β : Type} {looking : Looking α} {continuation : α → Looking β}
    {noted middle later : List String} {value : α} {result : β}
    (first : looking.run noted = .ok (value, middle))
    (second : (continuation value).run middle = .ok (result, later)) :
    (looking >>= continuation).run noted = .ok (result, later) := by
  rw [StateT.run_bind, first]
  exact second

mutual

/-- A value can always be shipped. -/
theorem ofValue_eq (value : Value) (noted : List String) :
    ∃ later, (ofValue parameter replicated value).run noted =
      .ok (value.shipment replicated, later) := by
  cases value with
  | tuple items =>
    obtain ⟨later, found⟩ := ofValues_eq items noted
    exact ⟨later, Looking.bind found rfl⟩
  | map entries =>
    obtain ⟨later, found⟩ := ofEntries_eq entries noted
    exact ⟨later, Looking.bind found rfl⟩
  | _ => exact ⟨_, rfl⟩

/-- Several values are always shipped each in its own way. -/
theorem ofValues_eq (items : List Value) (noted : List String) :
    ∃ later, (ofValues parameter replicated items).run noted =
      .ok (Value.shipments replicated items, later) := by
  cases items with
  | nil => exact ⟨noted, rfl⟩
  | cons item rest =>
    obtain ⟨middle, first⟩ := ofValue_eq item noted
    obtain ⟨later, others⟩ := ofValues_eq rest middle
    exact ⟨later, Looking.bind first (Looking.bind others rfl)⟩

/-- Several entries are always shipped each in its own way. -/
theorem ofEntries_eq (entries : List (String × Value)) (noted : List String) :
    ∃ later, (ofEntries parameter replicated entries).run noted =
      .ok (Value.entryShipments replicated entries, later) := by
  cases entries with
  | nil => exact ⟨noted, rfl⟩
  | cons entry rest =>
    obtain ⟨name, value⟩ := entry
    obtain ⟨middle, first⟩ := ofValue_eq value noted
    obtain ⟨later, others⟩ := ofEntries_eq rest middle
    exact ⟨later, Looking.bind first (Looking.bind others rfl)⟩

end

/-- What is found when looking goes well was found by its parts. -/
theorem Looking.bind_ok {α β : Type} {looking : Looking α} {continuation : α → Looking β}
    {noted later : List String} {result : β}
    (found : (looking >>= continuation).run noted = .ok (result, later)) :
    ∃ value middle, looking.run noted = .ok (value, middle) ∧
      (continuation value).run middle = .ok (result, later) := by
  rw [StateT.run_bind] at found
  cases first : looking.run noted with
  | error failure =>
    rw [first] at found
    cases found
  | ok outcome =>
    rw [first] at found
    exact ⟨outcome.1, outcome.2, rfl, found⟩

/-- A look at nothing gives what is given. -/
theorem Looking.pure_ok {α : Type} {value result : α} {noted later : List String}
    (found : (pure value : Looking α).run noted = .ok (result, later)) : value = result :=
  (Prod.mk.inj (Except.ok.inj found)).1

/-- What is found out about some things, if each of them can only give what `result` says. -/
theorem Looking.mapM_ok {α β : Type} (step : α → Looking β) (result : α → β)
    (each : ∀ item value noted later, (step item).run noted = .ok (value, later) →
      value = result item)
    (items : List α) (values : List β) (noted later : List String)
    (found : (items.mapM step).run noted = .ok (values, later)) : values = items.map result := by
  induction items generalizing values noted later with
  | nil => exact (Looking.pure_ok found).symm
  | cons item rest inductionHypothesis =>
    rw [List.mapM_cons] at found
    obtain ⟨first, middle, foundFirst, foundRest⟩ := Looking.bind_ok found
    obtain ⟨others, _, foundOthers, last⟩ := Looking.bind_ok foundRest
    rw [← Looking.pure_ok last, each item first noted middle foundFirst,
      inductionHypothesis others middle _ foundOthers]
    rfl

/-- A frame that can be shipped is shipped as it should be. -/
theorem ofFrame_ok (frame : Frame) (transfer : Transfer) (noted later : List String)
    (found : (ofFrame isLive parameter replicated frame).run noted = .ok (transfer, later)) :
    transfer = frame.transfer replicated := by
  cases frame with
  | collected table => exact (Prod.mk.inj (Except.ok.inj found)).1.symm
  | distributed partitioned handle =>
    simp only [ofFrame, Frame.residency] at found
    by_cases live : isLive handle = true
    · simp only [live, if_true] at found
      exact (Looking.pure_ok found).symm
    · simp only [live] at found
      cases found

/-- A table of a context that can be shipped is shipped in its own way. -/
theorem ofContextTable_ok (table : ContextTable) (shipment : TableShipment)
    (noted later : List String)
    (found : (ofContextTable isLive parameter replicated table).run noted =
      .ok (shipment, later)) :
    shipment = table.shipment replicated := by
  cases table with
  | path path => exact (Looking.pure_ok found).symm
  | data table => exact (Prod.mk.inj (Except.ok.inj found)).1.symm
  | frame frame =>
    obtain ⟨transfer, middle, first, last⟩ := Looking.bind_ok found
    rw [ofFrame_ok isLive parameter replicated frame transfer noted middle first] at last
    exact (Looking.pure_ok last).symm

/-- A context that can be shipped is shipped table by table. -/
theorem ofContext_ok (context : ContextArgument) (shipment : Shipment) (noted later : List String)
    (found : (ofContext isLive parameter replicated context).run noted = .ok (shipment, later)) :
    shipment = (Argument.context context).shipment replicated := by
  rw [Argument.shipment]
  unfold ofContext at found
  split at found
  case isTrue bare =>
    rw [if_pos bare]
    exact (Looking.pure_ok found).symm
  case isFalse full =>
    rw [if_neg full]
    obtain ⟨tables, middle, shipped, last⟩ := Looking.bind_ok found
    have looked := Looking.mapM_ok _
      (fun entry => (entry.1, entry.2.shipment replicated)) (fun entry named noted later found => by
        obtain ⟨table, _, shipped, last⟩ := Looking.bind_ok found
        rw [← Looking.pure_ok last, ofContextTable_ok isLive parameter replicated _ _ _ _ shipped])
      context.tables tables noted middle shipped
    rw [looked] at last
    exact (Looking.pure_ok last).symm

mutual

/-- An argument that can be shipped is shipped as it should be. -/
theorem ofArgument_ok (argument : Argument) (shipment : Shipment) (noted later : List String)
    (found : (ofArgument isLive parameter replicated argument).run noted =
      .ok (shipment, later)) :
    shipment = argument.shipment replicated := by
  cases argument with
  | value value =>
    obtain ⟨_, shipped⟩ := ofValue_eq parameter replicated value noted
    rw [ofArgument, shipped] at found
    exact (Prod.mk.inj (Except.ok.inj found)).1.symm
  | frame frame =>
    rw [ofArgument] at found
    obtain ⟨transfer, _, shipped, last⟩ := Looking.bind_ok found
    rw [ofFrame_ok isLive parameter replicated frame transfer noted _ shipped] at last
    exact (Looking.pure_ok last).symm
  | tuple items =>
    rw [ofArgument] at found
    obtain ⟨shipments, _, shipped, last⟩ := Looking.bind_ok found
    rw [ofArguments_ok items shipments noted _ shipped] at last
    exact (Looking.pure_ok last).symm
  | context context =>
    rw [ofArgument] at found
    exact ofContext_ok isLive parameter replicated context shipment noted later found

/-- Arguments that can be shipped are shipped each in its own way. -/
theorem ofArguments_ok (items : List Argument) (shipments : List Shipment)
    (noted later : List String)
    (found : (ofArguments isLive parameter replicated items).run noted =
      .ok (shipments, later)) :
    shipments = Argument.shipments replicated items := by
  cases items with
  | nil => exact (Looking.pure_ok found).symm
  | cons item rest =>
    rw [ofArguments] at found
    obtain ⟨shipment, middle, first, foundRest⟩ := Looking.bind_ok found
    obtain ⟨others, _, second, last⟩ := Looking.bind_ok foundRest
    rw [ofArgument_ok item shipment noted middle first,
      ofArguments_ok rest others middle _ second] at last
    exact (Looking.pure_ok last).symm

end

end Shipment

end Rankwise

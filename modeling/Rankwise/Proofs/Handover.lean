import Rankwise.Proofs.Entries
import Rankwise.Proofs.Sessions
import Rankwise.Proofs.Portions
import Rankwise.Proofs.Talks

/-!
# Arguments on their way to the ranks

The coordinator walks through arguments and their shipments and sends data; each worker walks
through skeletons and takes data. The two walks agree: what `Shipment.skeleton` leaves out is what
`Group.sendData` sends to each rank (`says_sendData`), and a worker that is handed just that comes
to the portion of its rank (`receives_argument`).
-/

namespace Rankwise

/-- A shipment that passes for one without tables is one. -/
theorem Shipment.eq_asIs {shipment : Shipment} (plain : shipment.isAsIs = true) :
    shipment = .asIs := by
  cases shipment with
  | asIs => rfl
  | _ => cases plain

namespace Value

variable (replicated : Bool)

/-- Entries are shipped under their names, each on its own. -/
theorem entryShipments_eq (entries : List (String × Value)) :
    entryShipments replicated entries = Named.mapValues (shipment replicated) entries := by
  induction entries with
  | nil => rfl
  | cons entry rest inductionHypothesis =>
    rw [entryShipments, inductionHypothesis]
    rfl

/-- A tuple that holds a table is shipped item by item. -/
theorem shipment_tuple (items : List Value)
    (mixed : ¬ ((tuple items).shipment replicated).isAsIs = true) :
    (tuple items).shipment replicated = .tuple (shipments replicated items) := by
  rw [shipment] at mixed ⊢
  split at mixed
  case isTrue => exact absurd rfl mixed
  case isFalse notAll => rw [if_neg notAll]

/-- A map that holds a table is shipped entry by entry. -/
theorem shipment_map (entries : List (String × Value))
    (mixed : ¬ ((map entries).shipment replicated).isAsIs = true) :
    (map entries).shipment replicated = .map (entryShipments replicated entries) := by
  rw [shipment] at mixed ⊢
  split at mixed
  case isTrue => exact absurd rfl mixed
  case isFalse notAll => rw [if_neg notAll]

/-- There is one shipment for each item. -/
theorem length_shipments (items : List Value) :
    (shipments replicated items).length = items.length := by
  induction items with
  | nil => rfl
  | cons item rest inductionHypothesis => exact congrArg (· + 1) inductionHypothesis

mutual

/-- A value that is sent as it is holds no table. -/
theorem parcels_of_asIs (value : Value) (plain : (value.shipment replicated).isAsIs = true)
    (size rank : Nat) :
    value.parcels replicated size rank = [] ∧ value.portion replicated size rank = value := by
  cases value with
  | table batch => cases plain
  | tuple items =>
    rw [shipment] at plain
    split at plain
    case isTrue all =>
      obtain ⟨none, same⟩ := parcelsOf_of_asIs items all size rank
      exact ⟨none, by rw [portion, same]⟩
    case isFalse => cases plain
  | map entries =>
    rw [shipment] at plain
    split at plain
    case isTrue all =>
      obtain ⟨none, same⟩ := entryParcels_of_asIs entries all size rank
      exact ⟨none, by rw [portion, same]⟩
    case isFalse => cases plain
  | _ => exact ⟨rfl, rfl⟩

/-- Items without tables need no parcels, and each rank has all of them. -/
theorem parcelsOf_of_asIs (items : List Value)
    (plain : (shipments replicated items).all Shipment.isAsIs = true) (size rank : Nat) :
    parcelsOf replicated size rank items = [] ∧ portions replicated size rank items = items := by
  cases items with
  | nil => exact ⟨rfl, rfl⟩
  | cons item rest =>
    rw [shipments, List.all_cons, Bool.and_eq_true] at plain
    obtain ⟨noneFirst, sameFirst⟩ := parcels_of_asIs item plain.1 size rank
    obtain ⟨noneRest, sameRest⟩ := parcelsOf_of_asIs rest plain.2 size rank
    exact ⟨by rw [parcelsOf, noneFirst, noneRest]; rfl, by rw [portions, sameFirst, sameRest]⟩

/-- Entries without tables need no parcels, and each rank has all of them. -/
theorem entryParcels_of_asIs (entries : List (String × Value))
    (plain : (entryShipments replicated entries).all (fun entry => entry.2.isAsIs) = true)
    (size rank : Nat) :
    entryParcels replicated size rank entries = [] ∧
      entryPortions replicated size rank entries = entries := by
  cases entries with
  | nil => exact ⟨rfl, rfl⟩
  | cons entry rest =>
    obtain ⟨name, value⟩ := entry
    rw [entryShipments, List.all_cons, Bool.and_eq_true] at plain
    obtain ⟨noneFirst, sameFirst⟩ := parcels_of_asIs value plain.1 size rank
    obtain ⟨noneRest, sameRest⟩ := entryParcels_of_asIs rest plain.2 size rank
    exact ⟨by rw [entryParcels, noneFirst, noneRest]; rfl,
      by rw [entryPortions, sameFirst, sameRest]⟩

end

/-- The shipment of an entry is found under its name. -/
theorem entry?_shipments (entries : List (String × Value)) (ordered : Named.Ordered entries)
    (name : String) (value : Value) (member : (name, value) ∈ entries) :
    Shipment.entry? (entryShipments replicated entries) name =
      .ok (value.shipment replicated) := by
  have found : (entryShipments replicated entries).lookup name =
      some (value.shipment replicated) := by
    rw [entryShipments_eq, Named.lookup_mapValues,
      Named.lookup_of_mem entries ordered name value member]
    rfl
  rw [Shipment.entry?, found]

end Value

namespace Worker

variable (replicated : Bool)

/-- A rank takes the table that is sent for a placeholder. -/
theorem receives_table (worker : Worker) (isTracked : Bool) (batch : Batch) (store : ResultStore)
    (intake : Intake) :
    Receives (worker.receiveTable isTracked (Shipment.transferOf replicated)) store intake
      [.data batch] (some batch) intake := by
  have taken : Receives (do return some (← (receive Message.expectData : Serving Batch)))
      store intake [.data batch] (some batch) intake :=
    Receives.map some (Receives.lift (Serves.receive _ rfl))
  cases replicated <;> exact taken

mutual

/-- The data behind the skeleton of a value is what the rank is to receive. -/
theorem takes_value (value : Value) (ordered : value.IsOrdered) :
    ∃ skeleton, Shipment.skeletonOfValue value (value.shipment replicated) = .ok skeleton ∧
      ∀ worker store intake, Receives (receiveArgument worker skeleton) store intake
        (value.parcels replicated worker.size worker.rank)
        (value.portion replicated worker.size worker.rank) intake := by
  by_cases plain : (value.shipment replicated).isAsIs = true
  · refine ⟨.value value, ?_, fun worker store intake => ?_⟩
    · cases shipped : value.shipment replicated with
      | asIs => cases value <;> rfl
      | _ => rw [shipped] at plain; cases plain
    · obtain ⟨none, same⟩ := value.parcels_of_asIs replicated plain worker.size worker.rank
      rw [none, same, receiveArgument]
      exact Receives.pure value store intake
  · cases value with
    | table batch =>
      refine ⟨.placeholder (Shipment.transferOf replicated), rfl, fun worker store intake => ?_⟩
      rw [receiveArgument]
      exact Receives.map (fun found => (found.map Value.table).getD .null)
        (receives_table replicated worker true _ store intake)
    | tuple items =>
      rw [Value.IsOrdered] at ordered
      obtain ⟨skeletons, made, taken⟩ := takes_values items ordered
      refine ⟨.tuple skeletons, ?_, fun worker store intake => ?_⟩
      · rw [Value.shipment_tuple replicated items plain, Shipment.skeletonOfValue,
          if_pos (Value.length_shipments replicated items), made]
        rfl
      · rw [receiveArgument, Value.parcels, Value.portion]
        exact Receives.map Value.tuple (taken worker store intake)
    | map entries =>
      rw [Value.IsOrdered] at ordered
      obtain ⟨skeletons, made, taken⟩ := takes_entries entries ordered.2 _
        (Value.entry?_shipments replicated entries ordered.1)
      have counted : (Value.entryShipments replicated entries).length = entries.length := by
        rw [Value.entryShipments_eq, Named.mapValues, List.length_map]
      refine ⟨.map skeletons, ?_, fun worker store intake => ?_⟩
      · rw [Value.shipment_map replicated entries plain, Shipment.skeletonOfValue, if_pos counted,
          made]
        rfl
      · rw [receiveArgument, Value.parcels, Value.portion]
        exact Receives.map Value.map (taken worker store intake)
    | _ => exact absurd rfl plain

/-- Every rank takes its portions of several values from the parcels for them. -/
theorem takes_values (items : List Value) (ordered : Value.AreOrdered items) :
    ∃ skeletons,
      Shipment.skeletonsOfValues items (Value.shipments replicated items) = .ok skeletons ∧
      ∀ worker store intake, Receives (receiveArguments worker skeletons) store intake
        (Value.parcelsOf replicated worker.size worker.rank items)
        (Value.portions replicated worker.size worker.rank items) intake := by
  cases items with
  | nil => exact ⟨[], rfl, fun worker store intake => Receives.pure [] store intake⟩
  | cons item rest =>
    obtain ⟨orderedFirst, orderedRest⟩ := ordered
    obtain ⟨skeleton, made, taken⟩ := takes_value item orderedFirst
    obtain ⟨skeletons, madeRest, takenRest⟩ := takes_values rest orderedRest
    refine ⟨skeleton :: skeletons, ?_, fun worker store intake => ?_⟩
    · rw [Value.shipments, Shipment.skeletonsOfValues, made, madeRest]
      rfl
    · rw [receiveArguments, Value.parcelsOf, Value.portions]
      exact Receives.bind (taken worker store intake)
        (Receives.map _ (takenRest worker store intake))

/-- Every rank takes its portions of several entries from the parcels for them. -/
theorem takes_entries (entries : List (String × Value)) (ordered : Value.EntriesOrdered entries)
    (shipments : List (String × Shipment))
    (listed : ∀ name value, (name, value) ∈ entries →
      Shipment.entry? shipments name = .ok (value.shipment replicated)) :
    ∃ skeletons, Shipment.skeletonsOfEntries entries shipments = .ok skeletons ∧
      ∀ worker store intake, Receives (receiveEntries worker skeletons) store intake
        (Value.entryParcels replicated worker.size worker.rank entries)
        (Value.entryPortions replicated worker.size worker.rank entries) intake := by
  cases entries with
  | nil => exact ⟨[], rfl, fun worker store intake => Receives.pure [] store intake⟩
  | cons entry rest =>
    obtain ⟨name, value⟩ := entry
    obtain ⟨orderedFirst, orderedRest⟩ := ordered
    obtain ⟨skeleton, made, taken⟩ := takes_value value orderedFirst
    obtain ⟨skeletons, madeRest, takenRest⟩ := takes_entries rest orderedRest shipments
      fun name value member => listed name value (List.mem_cons_of_mem _ member)
    refine ⟨(name, skeleton) :: skeletons, ?_, fun worker store intake => ?_⟩
    · rw [Shipment.skeletonsOfEntries, listed name value List.mem_cons_self]
      show (do
        let found ← Shipment.skeletonOfValue value (value.shipment replicated)
        return (name, found) :: (← Shipment.skeletonsOfEntries rest shipments)) = _
      rw [made, madeRest]
      rfl
    · rw [receiveEntries, Value.entryParcels, Value.entryPortions]
      exact Receives.bind (taken worker store intake)
        (Receives.map _ (takenRest worker store intake))

end

/-- The first of some results that a rank does not store, as a failure. -/
def missingOf (rank : Nat) (store : ResultStore) (mentioned : List ResultId) : Option Failure :=
  (mentioned.find? fun id => (store.find? id).isNone).map fun id => missingResult id rank

/-- What is found out when further results are mentioned, some of them as frames. -/
def Intake.after (intake : Intake) (rank : Nat) (store : ResultStore)
    (mentioned named : List ResultId) : Intake where
  named := intake.named ++ named
  missing := intake.missing.or (missingOf rank store mentioned)

/-- Where nothing further is mentioned, nothing further is found out. -/
@[simp] theorem Intake.after_nil (intake : Intake) (rank : Nat) (store : ResultStore) :
    intake.after rank store [] [] = intake := by
  simp [Intake.after, missingOf]

/-- What is found out in two goes is found out in one. -/
theorem Intake.after_after (intake : Intake) (rank : Nat) (store : ResultStore)
    (mentioned named further furtherNamed : List ResultId) :
    (intake.after rank store mentioned named).after rank store further furtherNamed =
      intake.after rank store (mentioned ++ further) (named ++ furtherNamed) := by
  simp [Intake.after, missingOf, List.find?_append, Option.map_or, Option.or_assoc]

/-- The data behind the placeholder of a frame is what the rank is to receive. -/
theorem receives_frame (worker : Worker) (isTracked : Bool) (frame : Frame) (store : ResultStore)
    (intake : Intake) :
    Receives (worker.receiveTable isTracked (frame.transfer replicated)) store intake
      (frame.parcels replicated worker.size worker.rank)
      (frame.portion replicated worker.size worker.rank store)
      (intake.after worker.rank store frame.mentioned
        (if isTracked then frame.mentioned else [])) := by
  cases frame with
  | collected table =>
    have taken := receives_table replicated worker isTracked
      (table.portion replicated worker.size worker.rank) store intake
    simpa [Frame.mentioned, Frame.transfer, Frame.parcels, Frame.portion] using taken
  | distributed partitioned handle =>
    show Receives (worker.receiveTable isTracked .lazy) store intake [.resultId handle.id]
      (store.find? handle.id) (intake.after worker.rank store [handle.id]
        (if isTracked then [handle.id] else []))
    unfold receiveTable
    refine Receives.bindTaking (Receives.lift (Serves.receive handle.id rfl)) ?_
    refine Receives.bindQuiet (Receives.lift (Serves.get store)) ?_
    let track (found : Option Batch) : Receiving (Option Batch) := do
      if isTracked then modify fun intake : Intake =>
        { intake with named := intake.named ++ [handle.id] }
      return found
    have tracks (found : Option Batch) (before : Intake) : Receives (track found) store before []
        found { before with named := before.named ++ if isTracked then [handle.id] else [] } := by
      cases isTracked
      · simpa [track] using Receives.pure found store before
      · exact Receives.bindQuiet (Receives.modify _ store before) (Receives.pure found store _)
    cases stored : store.find? handle.id with
    | some table =>
      simpa [Intake.after, missingOf, stored, track] using tracks (some table) intake
    | none =>
      let note (intake : Intake) : Intake :=
        { intake with missing := intake.missing.or (some (missingResult handle.id worker.rank)) }
      have whole : Receives (modify note >>= fun _ => track none) store intake [] none _ :=
        Receives.bindQuiet (Receives.modify note store intake) (tracks none (note intake))
      simpa [Intake.after, missingOf, stored, note, track] using whole

/-- The data behind the placeholders of a context is what the rank is to receive. -/
theorem receives_tables (worker : Worker) (tables : Named ContextTable) (store : ResultStore)
    (intake : Intake) :
    Receives (worker.receiveTables (tables.mapValues (ContextTable.shipment replicated))) store
      intake (tables.flatMap fun entry => entry.2.parcels replicated worker.size worker.rank)
      (tables.filterMap fun entry =>
        (entry.2.portion replicated worker.size worker.rank store).map fun source =>
          (entry.1, source))
      (intake.after worker.rank store (tables.flatMap fun entry => entry.2.mentioned) []) := by
  induction tables generalizing intake with
  | nil =>
    show Receives (Pure.pure []) store intake [] [] (intake.after worker.rank store [] [])
    rw [Intake.after_nil]
    exact Receives.pure [] store intake
  | cons entry rest inductionHypothesis =>
    obtain ⟨name, table⟩ := entry
    cases table with
    | path path => exact Receives.map _ (inductionHypothesis intake)
    | data table =>
      exact Receives.bind (receives_table replicated worker false _ store intake)
        (Receives.map _ (inductionHypothesis intake))
    | frame frame =>
      have first := receives_frame replicated worker false frame store intake
      have others := inductionHypothesis
        (intake.after worker.rank store frame.mentioned [])
      rw [Intake.after_after] at others
      rw [List.filterMap_cons]
      refine Receives.bind first ?_
      cases found : frame.portion replicated worker.size worker.rank store with
      | some table =>
        simp only [ContextTable.portion, found, Option.map_some]
        exact Receives.map _ others
      | none =>
        simp only [ContextTable.portion, found, Option.map_none]
        exact others

/-- A value has the same skeleton as an argument and on its own. -/
theorem skeleton_value (value : Value) :
    Shipment.skeleton (.value value) (value.shipment replicated) =
      Shipment.skeletonOfValue value (value.shipment replicated) := by
  cases value with
  | tuple items =>
    rw [Value.shipment]
    split <;> rfl
  | map entries =>
    rw [Value.shipment]
    split <;> rfl
  | _ => rfl

/-- There is one shipment for each argument. -/
theorem length_shipments (items : List Argument) :
    (Argument.shipments replicated items).length = items.length := by
  induction items with
  | nil => rfl
  | cons item rest inductionHypothesis => exact congrArg (· + 1) inductionHypothesis

mutual

/-- The data behind the skeleton of an argument is what the rank is to receive. -/
theorem takes_argument (argument : Argument) (ordered : argument.IsOrdered) :
    ∃ skeleton, Shipment.skeleton argument (argument.shipment replicated) = .ok skeleton ∧
      ∀ worker store intake, Receives (receiveArgument worker skeleton) store intake
        (argument.parcels replicated worker.size worker.rank)
        (argument.portion replicated worker.size worker.rank store)
        (intake.after worker.rank store argument.mentioned argument.named) := by
  -- By the form of the argument. Values go with the skeleton, and for tables parcels follow.
  cases argument with
  | value value =>
    obtain ⟨skeleton, made, taken⟩ := takes_value replicated value ordered
    refine ⟨skeleton, (skeleton_value replicated value).trans made, fun worker store intake => ?_⟩
    show Receives (receiveArgument worker skeleton) store intake
      (value.parcels replicated worker.size worker.rank)
      (value.portion replicated worker.size worker.rank) (intake.after worker.rank store [] [])
    rw [Intake.after_nil]
    exact taken worker store intake
  | frame frame =>
    refine ⟨.placeholder (frame.transfer replicated), rfl, fun worker store intake => ?_⟩
    rw [receiveArgument]
    exact Receives.map (fun found => (found.map Value.table).getD .null)
      (receives_frame replicated worker true frame store intake)
  | tuple items =>
    rw [Argument.IsOrdered] at ordered
    obtain ⟨skeletons, made, taken⟩ := takes_arguments items ordered
    refine ⟨.tuple skeletons, ?_, fun worker store intake => ?_⟩
    · rw [Argument.shipment, Shipment.skeleton, if_pos (length_shipments replicated items), made]
      rfl
    · rw [receiveArgument]
      exact Receives.map Value.tuple (taken worker store intake)
  | context context =>
    cases bare : context.tables.isEmpty with
    | true =>
      have none : context.tables = [] := List.isEmpty_iff.mp bare
      refine ⟨.value (.context { catalog := context.catalog, timeZone := context.timeZone }),
        ?_, fun worker store intake => ?_⟩
      · rw [Argument.shipment, if_pos bare]
        rfl
      · simpa [Argument.mentioned, Argument.named, Argument.parcels, Argument.portion, none,
          receiveArgument] using Receives.pure _ store intake
    | false =>
      refine ⟨.context {
        tables := context.tables.mapValues (ContextTable.shipment replicated)
        catalog := context.catalog
        timeZone := context.timeZone }, ?_, fun worker store intake => ?_⟩
      · rw [Argument.shipment, if_neg (by simp [bare])]
        rfl
      · rw [receiveArgument]
        exact Receives.map
          (fun tables => Value.context {
            tables, catalog := context.catalog, timeZone := context.timeZone })
          (receives_tables replicated worker context.tables store intake)

/-- Every rank takes its portions of several arguments from the parcels for them. -/
theorem takes_arguments (items : List Argument) (ordered : Argument.AreOrdered items) :
    ∃ skeletons,
      Shipment.skeletons items (Argument.shipments replicated items) = .ok skeletons ∧
      ∀ worker store intake, Receives (receiveArguments worker skeletons) store intake
        (Argument.parcelsOf replicated worker.size worker.rank items)
        (Argument.portions replicated worker.size worker.rank store items)
        (intake.after worker.rank store (Argument.mentionedIn items) (Argument.namedIn items)) := by
  cases items with
  | nil =>
    refine ⟨[], rfl, fun worker store intake => ?_⟩
    show Receives (Pure.pure []) store intake [] [] (intake.after worker.rank store [] [])
    rw [Intake.after_nil]
    exact Receives.pure [] store intake
  | cons item rest =>
    obtain ⟨orderedFirst, orderedRest⟩ := ordered
    obtain ⟨skeleton, made, taken⟩ := takes_argument item orderedFirst
    obtain ⟨skeletons, madeRest, takenRest⟩ := takes_arguments rest orderedRest
    refine ⟨skeleton :: skeletons, ?_, fun worker store intake => ?_⟩
    · rw [Argument.shipments, Shipment.skeletons, made, madeRest]
      rfl
    · rw [receiveArguments, Argument.parcelsOf, Argument.portions, Argument.mentionedIn,
        Argument.namedIn, ← Intake.after_after]
      exact Receives.bind (taken worker store intake)
        (Receives.map _ (takenRest worker store _))

end

end Worker

namespace Group

variable (group : Group) (fleet : Fleet) (replicated : Bool)

/-- Talk that hands each rank some messages of its own, whatever it was handed before. -/
def Hands (talk : Talk Unit) (parcels : Nat → List Message) : Prop :=
  ∀ lines : Nat → Line, Says talk group (fleet.place group.link lines) (.ok ())
    (fleet.place group.link fun rank => (lines rank).deliverAll (parcels rank))

variable {group fleet} in
/-- To say nothing hands over nothing. -/
theorem Hands.nothing : Hands group fleet (return) fun _ => [] := by
  intro lines
  simp only [Line.deliverAll_nil]
  exact Says.pure () group _

variable {group fleet} in
/-- What is said first is handed over first. -/
theorem Hands.bind {first second : Talk Unit} {parcels further : Nat → List Message}
    (handsFirst : Hands group fleet first parcels) (handsSecond : Hands group fleet second further) :
    Hands group fleet (do first; second) fun rank => parcels rank ++ further rank := by
  intro lines
  simp only [Line.deliverAll_append]
  exact Says.bind (handsFirst lines) (handsSecond _)

/-- Talk that begins with something that was found out already. -/
theorem Hands.after {α : Type} {found : Except Failure α} {value : α} {talk : α → Talk Unit}
    {parcels : Nat → List Message} (known : found = .ok value)
    (hands : Hands group fleet (talk value) parcels) :
    Hands group fleet ((ExceptT.mk (pure found) : Talk α) >>= talk) parcels := by
  subst known
  exact fun lines => Says.bind (Says.ofExcept _ group _) (hands lines)

variable (sized : fleet.size group.link = group.size)

include sized in
/-- A message to all ranks is handed to each of them. -/
theorem hands_broadcast (message : Message) :
    Hands group fleet (broadcast message) fun _ => [message] := by
  intro lines
  simp only [Line.deliverAll_singleton]
  exact says_broadcast group fleet lines sized message

include sized in
/-- Messages for the ranks are handed to each its own. -/
theorem hands_scatter (message : Nat → Message) :
    Hands group fleet (scatter ((List.range group.size).map message)) fun rank =>
      [message rank] := by
  intro lines
  simp only [Line.deliverAll_singleton]
  exact says_scatter group fleet lines sized message

variable (manned : 0 < group.size)

include sized manned in
/-- A table is sent as the portions of the ranks. -/
theorem hands_table (table : Batch) :
    Hands group fleet (sendTable table (Shipment.transferOf replicated)) fun rank =>
      [.data (table.portion replicated group.size rank)] := by
  cases replicated with
  | true => exact hands_broadcast group fleet sized (.data table)
  | false =>
    intro lines
    refine Says.bindGet ?_
    rw [Batch.splitEven_eq table group.size manned]
    refine Says.bind (Says.ofExcept _ group _) ?_
    rw [List.map_map]
    exact hands_scatter group fleet sized (Message.data ∘ table.block group.size) lines

include sized manned

/-- The parcels of a frame are handed over. -/
theorem hands_frame (frame : Frame) :
    Hands group fleet (sendFrame frame (frame.transfer replicated)) fun rank =>
      frame.parcels replicated group.size rank := by
  cases frame with
  | collected table =>
    have hands := hands_table group fleet replicated sized manned table
    cases replicated <;> exact hands
  | distributed partitioned handle => exact hands_broadcast group fleet sized (.resultId handle.id)

set_option linter.unusedSectionVars false in
mutual

/-- What is sent of a value besides its skeleton. -/
theorem hands_value (value : Value) (ordered : value.IsOrdered) :
    Hands group fleet (sendValueData value (value.shipment replicated)) fun rank =>
      value.parcels replicated group.size rank := by
  by_cases plain : (value.shipment replicated).isAsIs = true
  · simp only [value.parcels_of_asIs replicated plain group.size, Shipment.eq_asIs plain]
    cases value <;> exact Hands.nothing
  · cases value with
    | table batch => exact hands_table group fleet replicated sized manned batch
    | tuple items =>
      rw [Value.IsOrdered] at ordered
      rw [Value.shipment_tuple replicated items plain]
      exact hands_values items ordered
    | map entries =>
      rw [Value.IsOrdered] at ordered
      rw [Value.shipment_map replicated entries plain]
      exact hands_entries entries ordered.2 _
        (Value.entry?_shipments replicated entries ordered.1)
    | _ => exact absurd rfl plain

/-- The parcels of several values are handed over, one value after the other. -/
theorem hands_values (items : List Value) (ordered : Value.AreOrdered items) :
    Hands group fleet (sendValuesData items (Value.shipments replicated items)) fun rank =>
      Value.parcelsOf replicated group.size rank items := by
  cases items with
  | nil => exact Hands.nothing
  | cons item rest =>
    obtain ⟨orderedFirst, orderedRest⟩ := ordered
    exact Hands.bind (hands_value item orderedFirst) (hands_values rest orderedRest)

/-- The parcels of several entries are handed over, one entry after the other. -/
theorem hands_entries (entries : List (String × Value)) (ordered : Value.EntriesOrdered entries)
    (shipments : List (String × Shipment))
    (listed : ∀ name value, (name, value) ∈ entries →
      Shipment.entry? shipments name = .ok (value.shipment replicated)) :
    Hands group fleet (sendEntriesData entries shipments) fun rank =>
      Value.entryParcels replicated group.size rank entries := by
  cases entries with
  | nil => exact Hands.nothing
  | cons entry rest =>
    obtain ⟨name, value⟩ := entry
    obtain ⟨orderedFirst, orderedRest⟩ := ordered
    exact Hands.after group fleet (listed name value List.mem_cons_self)
      (Hands.bind (hands_value value orderedFirst) (hands_entries rest orderedRest shipments
        fun name value member => listed name value (List.mem_cons_of_mem _ member)))

end

/-- The table of a context is found under its name when its data is sent. -/
theorem hands_contextTable (tables : Named ContextTable) (name : String) (table : ContextTable)
    (found : tables.get? name = some table) :
    Hands group fleet (sendContextTable tables name (table.shipment replicated)) fun rank =>
      table.parcels replicated group.size rank := by
  cases table with
  | path path => exact Hands.nothing
  | data batch =>
    rw [ContextTable.shipment, sendContextTable, found]
    exact hands_table group fleet replicated sized manned batch
  | frame frame =>
    rw [ContextTable.shipment, sendContextTable, found]
    exact hands_frame group fleet replicated sized manned frame

/-- The parcels of the tables of a context are handed over, one table after the other. -/
theorem hands_contextTables (tables listed : Named ContextTable)
    (found : ∀ entry ∈ listed, tables.get? entry.1 = some entry.2) :
    Hands group fleet
      ((listed.mapValues (ContextTable.shipment replicated)).forM fun (name, table) =>
        sendContextTable tables name table)
      fun rank => listed.flatMap fun entry => entry.2.parcels replicated group.size rank := by
  induction listed with
  | nil => exact Hands.nothing
  | cons entry rest inductionHypothesis =>
    exact Hands.bind
      (hands_contextTable group fleet replicated sized manned tables entry.1 entry.2
        (found entry List.mem_cons_self))
      (inductionHypothesis fun other member => found other (List.mem_cons_of_mem _ member))

set_option linter.unusedSectionVars false in
mutual

/-- What is sent of an argument besides its skeleton. -/
theorem hands_argument (argument : Argument) (ordered : argument.IsOrdered) :
    Hands group fleet (sendData argument (argument.shipment replicated)) fun rank =>
      argument.parcels replicated group.size rank := by
  cases argument with
  | value value =>
    have same : sendData (.value value) (value.shipment replicated) =
        sendValueData value (value.shipment replicated) := by
      by_cases plain : (value.shipment replicated).isAsIs = true
      · rw [Shipment.eq_asIs plain]
        cases value <;> rfl
      · cases value with
        | table batch => rfl
        | tuple items => rw [Value.shipment_tuple replicated items plain]; rfl
        | map entries => rw [Value.shipment_map replicated entries plain]; rfl
        | _ => exact absurd rfl plain
    rw [Argument.shipment, same]
    exact hands_value group fleet replicated sized manned value ordered
  | frame frame => exact hands_frame group fleet replicated sized manned frame
  | tuple items =>
    rw [Argument.IsOrdered] at ordered
    exact hands_arguments items ordered
  | context context =>
    rw [Argument.IsOrdered] at ordered
    cases bare : context.tables.isEmpty with
    | true =>
      have none : context.tables = [] := List.isEmpty_iff.mp bare
      simp only [Argument.shipment, Argument.parcels, none, List.isEmpty_nil, if_true,
        List.flatMap_nil]
      exact Hands.nothing
    | false =>
      rw [Argument.shipment, if_neg (by simp [bare])]
      exact hands_contextTables group fleet replicated sized manned context.tables context.tables
        fun entry member => Named.lookup_of_mem _ ordered entry.1 entry.2 member

/-- The parcels of several arguments are handed over, one argument after the other. -/
theorem hands_arguments (items : List Argument) (ordered : Argument.AreOrdered items) :
    Hands group fleet (sendAllData items (Argument.shipments replicated items)) fun rank =>
      Argument.parcelsOf replicated group.size rank items := by
  cases items with
  | nil => exact Hands.nothing
  | cons item rest =>
    obtain ⟨orderedFirst, orderedRest⟩ := ordered
    exact Hands.bind (hands_argument item orderedFirst) (hands_arguments rest orderedRest)

end

end Group

end Rankwise
